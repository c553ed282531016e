import Mathlib.Logic.Function.Basic
import IsvValidation.Host.Text

/-!
# Fetched provider checkouts

Registered providers are fetched into one directory per name. `fetch_cmd` checks a revision out into
a staging directory beside the target, marks it, and renames it into place, with the previous
checkout set aside meanwhile. What git does to the staging directory and which file operations fail
is left open; an operation which asks for the status of a path raises where it fails.
-/

namespace IsvValidation.Registry

open Host

/-! ## Registry entries -/

/-- A character class of the schema's pattern for `path`. -/
def isNameChar (c : Char) : Bool := c.isAlphanum || c == '_' || c == '-'

/-- One directory name in a `path`. -/
def isSegment (segment : List Char) : Bool :=
  match segment with
  | [] => false
  | first :: rest => isNameChar first && rest.all fun c ↦ isNameChar c || c == '.'

/-- The text a pattern ending in `$` is matched with: `re.search` lets one newline follow. -/
def beforeDollar (text : List Char) : List Char :=
  if text.getLast? = some '\n' then text.dropLast else text

/-- The schema's pattern for `path`, as `re.search` matches it. -/
def pathPattern (path : String) : Bool :=
  ((beforeDollar path.toList).splitOn '/').all isSegment

/-- What `fetch_cmd` and `fetch_state` read of one externally maintained provider. -/
structure RegistryEntry where
  name : String
  repoUrl : String
  path : Option String
  commit : String
  deriving DecidableEq

/-- What `load_entry` has checked: the pattern of the path, and that no in-tree provider has the
name. -/
structure RegistryEntry.Valid (entry : RegistryEntry) (inTree : String → Bool) : Prop where
  path : ∀ path, entry.path = some path → pathPattern path = true
  notInTree : inTree entry.name = false

/-! ## Checkouts -/

/-- A directory: what `git rev-parse HEAD` prints in it, the text of `.git/isvctl-fetched`, the
directories in it by the names on their path, and the other files. -/
structure Tree where
  head : Option String := none
  marker : Option String := none
  directories : List (List String) := []
  files : List (List String × String) := []
  deriving DecidableEq

namespace Tree

def isEmpty (tree : Tree) : Bool := tree = {}

/-- `is_fetched_checkout`. -/
def isFetchedCheckout (tree : Tree) : Bool := tree.marker.isSome

def markerText (providerPath : Option String) : String :=
  match providerPath.filter (· ≠ "") with
  | some path => "created by isvctl provider fetch\npath: " ++ path ++ "\n"
  | none => "created by isvctl provider fetch\n"

/-- `mark_fetched`. -/
def markFetched (tree : Tree) (providerPath : Option String) : Tree :=
  { tree with marker := some (markerText providerPath) }

/-- The `config` directory which an entry declares. -/
def configDir (entry : RegistryEntry) : List String :=
  Text.pathParts ((entry.path.filter (· ≠ "")).getD ".") ++ ["config"]

def hasConfig (tree : Tree) (entry : RegistryEntry) : Bool :=
  tree.directories.contains (configDir entry)

end Tree

/-- `_fetched_provider_path`, of the text of a marker. -/
def fetchedProviderPath (marker : String) : Option String :=
  ((Text.splitlines marker).find? fun line ↦ Text.startsWith line "path: ").map fun line ↦
    String.ofList (line.toList.drop "path: ".length)

/-- The in-tree providers by name, and what stands in `providers-external/`. -/
structure World where
  inTree : String → Bool
  external : String → Option Tree

namespace World

def put (world : World) (name : String) (tree : Option Tree) : World :=
  { world with external := Function.update world.external name tree }

/-- A rename which succeeds. -/
def rename (world : World) (source target : String) : World :=
  (world.put target (world.external source)).put source none

/-- A directory is renamed only to a name where nothing stands, or an empty directory. -/
def free (world : World) (name : String) : Bool :=
  (world.external name).all Tree.isEmpty

end World

/-! ## The state of a checkout -/

inductive FetchState where
  | missing
  | localCopy
  | stale
  | current
  deriving DecidableEq

/-- `provider_dir(name) == checkout / (entry.path or "")`: a provider in the tree comes first, and a
marker without a path stands for the checkout itself. -/
def pathMatches (world : World) (entry : RegistryEntry) (marker : String) : Bool :=
  !world.inTree entry.name &&
    Text.pathParts ((fetchedProviderPath marker).getD "") = Text.pathParts (entry.path.getD "")

/-- `fetch_state`, where git can be run. -/
def fetchState (world : World) (entry : RegistryEntry) : FetchState × Option String :=
  match world.external entry.name with
  | none => (.missing, none)
  | some tree =>
    match tree.marker with
    | none => (.localCopy, none)
    | some marker =>
      match tree.head with
      | none => (.missing, none)
      | some head =>
        (if head = entry.commit ∧ pathMatches world entry marker then .current else .stale,
          some head)

/-! ## Fetching -/

/-- How `run_git` ends otherwise than by returning: with the `RuntimeError` its callers expect, or
with an error of starting the process. -/
inductive GitError where
  | runtimeError
  | osError
  deriving DecidableEq

/-- What the git commands do to a checkout: whether they raise, and the state they leave it in.
Reading `HEAD` may fail too. -/
structure Git where
  init : Tree → Except GitError Unit × Tree
  fetch : (url revision : String) → Tree → Except GitError Unit × Tree
  checkout : Tree → Except GitError Unit × Tree
  revParse : Except GitError Unit

/-- `git rev-parse HEAD`. -/
def revParse (git : Git) (tree : Tree) : Except GitError String :=
  match git.revParse, tree.head with
  | .error error, _ => .error error
  | .ok _, none => .error .runtimeError
  | .ok _, some head => .ok head

/-- `_fetch_revision` in an empty directory: the commit or the error, and what the directory holds
afterwards. -/
def fetchRevision (git : Git) (entry : RegistryEntry) : Except GitError String × Tree :=
  match git.init {} with
  | (.error error, tree) => (.error error, tree)
  | (.ok _, tree) =>
    match git.fetch entry.repoUrl entry.commit tree with
    | (.error error, tree) => (.error error, tree)
    | (.ok _, tree) =>
      match git.checkout tree with
      | (.error error, tree) => (.error error, tree)
      | (.ok _, tree) => (revParse git tree, tree)

/-- The file operations of `fetch_cmd`, in the order of the source. -/
inductive Operation where
  | targetExists
  | targetFetched
  | mkdir
  | mkdtemp
  | configDir
  | removeRejected
  | markFetched
  | targetExistsAgain
  | setAside
  | moveIn
  | rollBack
  | removeStaging
  | removePrevious
  | nextSteps
  deriving DecidableEq

/-- Which operations fail, what a failed removal or write leaves, and the name `mkdtemp` draws. -/
structure Faults where
  fails : Operation → Bool
  leaves : Operation → Option Tree := fun _ ↦ none
  random : String

/-- At most one file operation of the run fails. -/
def Faults.AtMostOne (faults : Faults) : Prop :=
  ∀ first second, faults.fails first = true → faults.fails second = true → first = second

inductive Exit where
  | success
  | failure
  deriving DecidableEq

section Fetch

variable (faults : Faults) (entry : RegistryEntry)

def stagingName : String := ".fetch-" ++ entry.name ++ "-" ++ faults.random

def previousName : String := stagingName faults entry ++ "-previous"

/-- What `rmtree` leaves. -/
def removed (operation : Operation) : Option Tree :=
  if faults.fails operation then faults.leaves operation else none

/-- From the new checkout in its place on: only what is printed is left. -/
def finish : Exit := if faults.fails .nextSteps then .failure else .success

/-- The second half of `fetch_cmd`: the marked staging directory takes the target's place. -/
def install (world : World) : Exit × World :=
  let staging := stagingName faults entry
  let previous := previousName faults entry
  if faults.fails .targetExistsAgain then (.failure, world)
  else if (world.external entry.name).isSome then
    if faults.fails .setAside || !world.free previous then (.failure, world)
    else
      let aside := world.rename entry.name previous
      if faults.fails .moveIn then
        -- Where this fails too, the handler ends in a traceback before it removes anything.
        if faults.fails .rollBack then (.failure, aside)
        else (.failure,
          (aside.rename previous entry.name).put staging (removed faults .removeStaging))
      else
        let moved := aside.rename staging entry.name
        if faults.fails .removePrevious then
          (.failure, moved.put previous (faults.leaves .removePrevious))
        else (finish faults, moved.put previous none)
  else if faults.fails .moveIn then
    (.failure, world.put staging (removed faults .removeStaging))
  else (finish faults, world.rename staging entry.name)

/-- The first half: check out into a staging directory, look at the result, and mark it. -/
def stage (git : Git) (world : World) : Exit × World :=
  let staging := stagingName faults entry
  if faults.fails .mkdir then (.failure, world)
  else if faults.fails .mkdtemp || (world.external staging).isSome then (.failure, world)
  else
    let rejected := (Exit.failure, world.put staging (removed faults .removeRejected))
    match fetchRevision git entry with
    | (.error .osError, tree) => (.failure, world.put staging (some tree))
    | (.error .runtimeError, _) => rejected
    | (.ok head, tree) =>
      if head ≠ entry.commit then rejected
      else if faults.fails .configDir then (.failure, world.put staging (some tree))
      else if !tree.hasConfig entry then rejected
      else if faults.fails .markFetched then
        (.failure, world.put staging (faults.leaves .markFetched))
      else install faults entry (world.put staging (some (tree.markFetched entry.path)))

/-- `fetch_cmd`, for an entry which has been loaded. -/
def fetchCmd (git : Git) (world : World) : Exit × World :=
  if faults.fails .targetExists then (.failure, world)
  else
    match world.external entry.name with
    | none => stage faults entry git world
    | some tree =>
      if faults.fails .targetFetched then (.failure, world)
      else if !tree.isFetchedCheckout then (.failure, world)
      else stage faults entry git world

end Fetch

end IsvValidation.Registry
