import IsvValidation.Deploy.RemoteScript
import IsvValidation.Host.Quoting
import IsvValidation.Library.Shell
import IsvValidation.Orchestrator.Plan

/-!
# The script which is sent

The text which `deploy run` hands to the remote shell, with the values in it: the remote directory
between double quotes, the config paths as they are, everything else quoted by `shlex`. The command
line of the test run stands in it twice, the first time as part of a message between double quotes.
-/

namespace IsvValidation.Deploy

open Host Library Library.Shell Orchestrator

/-- The lines of the script into which values go. -/
inductive ScriptLine where
  | cd
  | announce
  | testRun
  deriving DecidableEq

/-- `_resolve_config_paths` accepts a path. -/
def acceptedConfig (config : String) : Bool :=
  ["isvctl/", "isvtest/", "isvreporter/"].any fun start ↦ Text.startsWith config start

/-- What a script is made for: `configs` has gone through `_resolve_config_paths`. -/
structure Deployment where
  effectiveRemoteDir : String
  configs : List String
  phase : Phase
  capability : Option String := none
  ngcApiKey : String := ""
  sourceRef : String := ""
  args : List String := []
  ne_nil : configs ≠ []
  accepted : ∀ config ∈ configs, acceptedConfig config = true

abbrev ScriptText := List (Glyph ScriptLine)

/-- `" ".join(…)`. -/
def spaced (texts : List ScriptText) : ScriptText := (own " ").intercalate texts

def ownLines (lines : List String) : ScriptText := lines.flatMap own

/-- A word which `shlex.quote` writes. -/
def quotedText (word : String) : ScriptText := value (Shlex.quote word).toList

/-- `_pytest_passthrough`. -/
def pytestPassthrough (args : List String) : ScriptText :=
  match args with
  | [] => []
  | _ => own "-- " ++ spaced (args.map quotedText)

/-- `_capability_option`; an empty capability counts as none. -/
def capabilityOption (capability : Option String) : ScriptText :=
  match capability.filter (· ≠ "") with
  | some capability => own "--capability " ++ quotedText capability
  | none => []

/-- The variables which the target cannot obtain on its own. -/
def forwarded (ngcApiKey sourceRef : String) : List (String × String) :=
  (if ngcApiKey = "" then [] else [("NGC_API_KEY", ngcApiKey)]) ++
    if sourceRef = "" then [] else [("ISVTEST_BUILD_REF", sourceRef)]

/-- `_remote_env_assignments`. -/
def remoteEnvAssignments (ngcApiKey sourceRef : String) : ScriptText :=
  spaced ((forwarded ngcApiKey sourceRef).map fun item ↦ own (item.1 ++ "=") ++ quotedText item.2)

/-- `_clear_replaced_dirs_script`, line by line. -/
def clearReplacedDirsScript : List String :=
  ["for dir in " ++ Shlex.join (remoteReplacedDirs.map "/".intercalate) ++ "; do\n",
    "    if [ -e \"$dir\" ]; then\n",
    "        sudo rm -rf \"$dir\" 2>/dev/null || rm -rf \"$dir\" || " ++
      "\x7b echo \"Failed to remove $dir\" >&2; exit 1; \x7d\n",
    "    fi\n",
    "done\n"]

def archiveName : String := "ai-cloud-validation.tar.gz"

namespace Deployment

variable (deployment : Deployment)

/-- `config_args`. -/
def configArgs : ScriptText :=
  spaced (deployment.configs.map fun config ↦ own "-f " ++ value config.toList)

/-- The arguments which follow the phase, as the message shows them. -/
def passedOn : ScriptText :=
  capabilityOption deployment.capability ++ own " " ++ pytestPassthrough deployment.args

/-- The lines before the remote directory. -/
def opening : List String :=
  ["\n",
    "# Ensure ~/.local/bin is in PATH (where uv is typically installed)\n",
    "export PATH=\"$HOME/.local/bin:$PATH\"\n",
    "\n"]

/-- The lines between the remote directory and the message. -/
def preparation : List String :=
  ["echo \"Removing previous source trees...\"\n"] ++
  clearReplacedDirsScript ++
  ["echo \"Extracting archive...\"\n",
    "tar -xzf \"" ++ archiveName ++ "\"\n",
    "\n",
    "# Remove venv to avoid permission issues\n",
    "if [ -d \".venv\" ]; then\n",
    "    echo \"Removing existing venv...\"\n",
    "    sudo rm -rf .venv 2>/dev/null || rm -rf .venv\n",
    "fi\n",
    "\n",
    "echo \"Running uv sync...\"\n",
    "uv sync --quiet\n",
    "\n",
    "echo \"Running validation tests with isvctl...\"\n"]

/-- The message with the command line. -/
def announcement : ScriptText :=
  first .announce "echo" ++ own " \"Command: isvctl test run " ++ deployment.configArgs ++
    own (" --phase " ++ deployment.phase.value ++ " ") ++ deployment.passedOn

/-- The test run with its arguments. -/
def testRunLine : ScriptText :=
  first .testRun "sudo" ++ own " -E env PATH=\"$PATH\" PYTHONUNBUFFERED=1 " ++
    remoteEnvAssignments deployment.ngcApiKey deployment.sourceRef ++
    own " uv run isvctl test run " ++ deployment.configArgs ++
    own (" --phase " ++ deployment.phase.value ++ " ") ++ capabilityOption deployment.capability ++
    own " --color=yes --junitxml=junit-validation.xml " ++ pytestPassthrough deployment.args

/-- The lines between the message and the test run. -/
def options : List String := ["\n", "set +e\n", "set -o pipefail\n"]

/-- The lines which follow the test run. -/
def closing : List String :=
  ["TEST_RESULT=$\x7bPIPESTATUS[0]\x7d\n",
    "set +o pipefail\n",
    "\n",
    "echo \"\"\n",
    "echo \"=============================================\"\n",
    "if [ \"$TEST_RESULT\" -eq 0 ] 2>/dev/null; then\n",
    "    echo \"Tests completed successfully!\"\n",
    "else\n",
    "    echo \"Tests completed with failures (exit code: $TEST_RESULT)\"\n",
    "fi\n",
    "echo \"=============================================\"\n",
    "\n",
    "exit $\x7bTEST_RESULT:-1\x7d\n"]

/-- `remote_script`. -/
def remoteScript : ScriptText :=
  ownLines opening ++ first .cd "cd" ++ own " \"" ++ value deployment.effectiveRemoteDir.toList ++
    own "\"\n" ++ ownLines preparation ++ deployment.announcement ++ own "\"\n" ++
    ownLines options ++ deployment.testRunLine ++ own " 2>&1 | tee pytest-output.log\n" ++
    ownLines closing

/-- The words of the command which runs the tests. -/
def testRunWords : List (List Shown) :=
  let chars := fun text : String ↦ text.toList.map Shown.char
  ["sudo", "-E", "env"].map chars ++ [chars "PATH=" ++ [.parameter "PATH".toList]] ++
    [chars "PYTHONUNBUFFERED=1"] ++
    (forwarded deployment.ngcApiKey deployment.sourceRef).map
      (fun item ↦ chars (item.1 ++ "=" ++ item.2)) ++
    ["uv", "run", "isvctl", "test", "run"].map chars ++
    deployment.configs.flatMap (fun config ↦ [chars "-f", chars config]) ++
    [chars "--phase", chars deployment.phase.value] ++
    ((deployment.capability.filter (· ≠ "")).toList.flatMap fun capability ↦
      [chars "--capability", chars capability]) ++
    ["--color=yes", "--junitxml=junit-validation.xml"].map chars ++
    match deployment.args with
    | [] => []
    | args => chars "--" :: args.map chars

end Deployment

/-- The remote shell reads every line of the script as a command of its own, expands and executes no
part of a value, and calls the test run with exactly its words. -/
structure CarriesVerbatim (dialect : Dialect) (deployment : Deployment) : Prop where
  untouched : (Reader.read dialect {} deployment.remoteScript).mode ≠ .lost
  lines : ∀ line, ∃ command ∈ (Reader.read dialect {} deployment.remoteScript).commands,
    command.line = some line
  receives : ∃ command ∈ (Reader.read dialect {} deployment.remoteScript).commands,
    command.line = some .testRun ∧ command.words.map Word.shown = deployment.testRunWords

end IsvValidation.Deploy
