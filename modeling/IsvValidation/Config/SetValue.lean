import IsvValidation.Config.Imports
import IsvValidation.Library.ObjectGraph
import IsvValidation.Library.Sequence
import Mathlib.Data.Set.Finite.Basic

/-!
# Settings on the command line

`--set` writes a value at a dotted path of the merged configuration, in the mapping which stands there, and makes the
mappings on the way where there are none. A mapping to which a YAML file gives an alias is one object under several
keys, and `deepcopy` keeps it one within what it copies. So a configuration is a graph of objects here: a setting changes
what is read at its path and nothing else exactly where no other path leads to a mapping which a dotted path leads to.
-/

namespace IsvValidation.Config

open Library

/-! ## The text of a setting -/

/-- The parts of a dotted path; `split` always gives one. -/
structure SetPath where
  first : String
  rest : List String
  deriving DecidableEq

def SetPath.parts (path : SetPath) : List String := path.first :: path.rest

structure Setting (α : Type) where
  path : SetPath
  value : α

/-- How `yaml.safe_load` ends on a string. -/
inductive YamlText (α : Type) where
  | value (value : α)
  | yamlError
  | failed (raised : PyError)

/-- `key_path.split(".")`. -/
def splitPath (keyPath : List Char) : SetPath :=
  match (keyPath.splitOn '.').map String.ofList with
  | first :: rest => ⟨first, rest⟩
  | [] => ⟨"", []⟩

section Text

variable {α : Type} (safeLoad : String → YamlText α) (ofText : String → α)

/-- `parse_set_value`. -/
def parseSetValue (setString : String) : Except PyError (Setting α) :=
  if '=' ∉ setString.toList then
    .error (.valueError
      s!"Invalid --set format: '{setString}'. Expected 'key=value' or 'key.path=value'")
  else
    let keyPath := setString.toList.takeWhile (· ≠ '=')
    let valueStr := String.ofList (setString.toList.drop (keyPath.length + 1))
    if keyPath.isEmpty then
      .error (.valueError (s!"Invalid --set format: '{setString}'. " ++
        "Expected non-empty 'key=value' or 'key.path=value'"))
    else
      match safeLoad valueStr with
      | .value value => .ok ⟨splitPath keyPath, value⟩
      | .yamlError => .ok ⟨splitPath keyPath, ofText valueStr⟩
      | .failed raised => .error raised

/-- The text says the setting: dots stand between the parts of its path, and after the first `=` stands what its value
is loaded from, or is where it cannot be loaded. -/
structure Says (setString : String) (setting : Setting α) : Prop where
  written : ∃ valueStr, setString.toList =
      ['.'].intercalate (setting.path.parts.map String.toList) ++ '=' :: String.toList valueStr ∧
    (safeLoad valueStr = .value setting.value ∨ safeLoad valueStr = .yamlError ∧ setting.value = ofText valueStr)
  parts : ∀ part ∈ setting.path.parts, '.' ∉ part.toList ∧ '=' ∉ part.toList
  named : setting.path.parts ≠ [""]

variable {safeLoad ofText}

end Text

/-! ## Objects -/

/-- What is no mapping and no list. -/
inductive Leaf where
  | scalar (value : Scalar)
  | set (members : List Scalar)
  deriving DecidableEq

/-- A value as `yaml.safe_load` makes it. The keys of its mappings are held as `==` compares them. -/
abbrev Objects := Heap Scalar Leaf

/-- The path under the parts of a dotted path. -/
def dotted (parts : List String) : List (Move Scalar) := parts.map fun part ↦ .key (.str part)

/-- The path under keys of any kind. -/
def under (path : List Scalar) : List (Move Scalar) := path.map .key

namespace Objects

def isMapping (objects : Objects) : Bool := objects.read [] = some .mapping

/-- `result[key] = value` with a value which is named nowhere else. -/
def setKey (objects : Objects) (key : Scalar) (value : Objects) : Objects :=
  match objects.root with
  | .leaf _ => objects
  | .cell index => objects.put value index key

/-- `deep_merge`, as deep as Python recurses. Each of the values which `deepcopy` copies has objects of its own
afterwards. -/
def deepMerge : ℕ → Objects → Objects → Except PyError Objects
  | 0, _, _ => .error (.other "RecursionError" "maximum recursion depth exceeded")
  | depth + 1, base, override => override.keys.foldlM (fun result key ↦
      match result.get? key, override.get? key with
      | _, none => .ok result
      | none, some new => .ok (result.setKey key new)
      | some old, some new =>
        if isMapping old && isMapping new then do
          let merged ← deepMerge depth old new
          return result.setKey key merged
        else .ok (result.setKey key new)) base

/-- `current[part] = value`, where the value is named nowhere else. -/
def setItem (objects : Objects) (current : ℕ) (part : String) (value : Objects) : Except PyError Objects :=
  if objects.view (.cell current) = some .mapping then .ok (objects.put value current (.str part))
  else .error (.typeError "object does not support item assignment")

/-- Make a mapping under a key which has none. -/
def enter (objects : Objects) (current : ℕ) (part : String) : Except PyError Objects :=
  if (objects.step (.cell current) (.key (.str part))).bind objects.view = some .mapping then .ok objects
  else objects.setItem current part .empty

/-- The walk of `apply_set_value`, from the mapping it has come to. -/
def applySetValue (objects : Objects) (current : ℕ) (part : String) (rest : List String) (value : Objects) :
    Except PyError Objects :=
  match rest with
  | [] => objects.setItem current part value
  | next :: rest => do
    let entered ← objects.enter current part
    match entered.step (.cell current) (.key (.str part)) with
    | some (.cell inner) => entered.applySetValue inner next rest value
    | _ => .error (.typeError "argument is not iterable")

/-- `apply_set_value`. -/
def apply (objects : Objects) (setting : Setting Objects) : Except PyError Objects :=
  match objects.root with
  | .cell current => objects.applySetValue current setting.path.first setting.path.rest setting.value
  | .leaf _ => .error (.typeError "argument is not iterable")

end Objects

section Files

variable (load : String → Except PyError Objects) (safeLoad : String → YamlText Objects) (recursionLimit : ℕ)

end Files

/-! ## What a setting leaves -/

/-- One path is a beginning of the other. -/
def Comparable (path other : List (Move Scalar)) : Prop := path <+: other ∨ other <+: path

/-- What is read after a setting: its value at its path, and elsewhere what was read before. A mapping with one path
keeps it, and one of the value has one. -/
structure Leaves (before : Objects) (parts : List String) (value after : Objects) : Prop where
  below : ∀ tail, after.read (dotted parts ++ tail) = value.read tail
  apart : ∀ path tail, ¬ Comparable (dotted parts) (under path) →
    after.read (under path ++ tail) = before.read (under path ++ tail)
  alone : ∀ place, ¬ dotted parts <+: place → before.Alone place → after.Alone place
  fresh : ∀ tail, value.Alone tail → after.Alone (dotted parts ++ tail)

theorem dotted_append (parts rest : List String) : dotted (parts ++ rest) = dotted parts ++ dotted rest :=
  List.map_append

section Walk

variable {objects : Objects} {current : ℕ} {above : List String} {part : String}
  (hpath : objects.follow objects.root (dotted above) = some (.cell current))
  (hmapping : objects.read (dotted above) = some .mapping) (halone : objects.Alone (dotted above))

include hpath hmapping

include halone

end Walk

/-- The walk needs one path to each mapping it enters. -/
def Clear (objects : Objects) (parts : List String) : Prop :=
  ∀ place, place <+: dotted parts → place ≠ dotted parts → objects.Alone place

theorem Clear.alone {objects : Objects} {above rest : List String} {part : String}
    (h : Clear objects (above ++ part :: rest)) : objects.Alone (dotted above) := by
  apply h
  · rw [dotted_append]
    exact List.prefix_append ..
  · simp [dotted]

namespace Leaves

variable {before after value : Objects} {parts : List String}

/-- Above the path of a setting there are mappings. -/
theorem above (h : Leaves before parts value after) {path tail : List (Move Scalar)} {move : Move Scalar}
    (hparts : dotted parts = path ++ move :: tail) : after.read path = some .mapping := by
  obtain ⟨key, rfl⟩ : ∃ key, move = .key key := by
    have hmem : move ∈ dotted parts := by rw [hparts]; simp
    obtain ⟨part, -, hpart⟩ := List.mem_map.mp hmem
    exact ⟨_, hpart.symm⟩
  have hvalue : (value.read []).isSome := value.read_isSome_of_follow rfl
  rw [← h.below [], List.append_nil, hparts] at hvalue
  obtain ⟨view, hview⟩ := Option.isSome_iff_exists.mp hvalue
  obtain ⟨slot, hslot, -⟩ := Option.bind_eq_some_iff.mp hview
  exact after.read_of_key hslot

theorem isMapping {part : String} {rest : List String} (h : Leaves before (part :: rest) value after) :
    after.read [] = some .mapping := h.above (List.nil_append _).symm

theorem clear (h : Leaves before parts value after) {other : List String}
    (hnot : ¬ Comparable (dotted parts) (dotted other)) (hclear : Clear before other) : Clear after other :=
  fun place hpre hne ↦ h.alone place (fun habove ↦ hnot (.inl (habove.trans hpre))) (hclear place hpre hne)

end Leaves

/-! ## Lists of settings -/

/-- No other path leads to a mapping to which a dotted path leads. -/
def Unshared (objects : Objects) : Prop := ∀ parts, objects.Alone (dotted parts)

theorem Unshared.clear {objects : Objects} (h : Unshared objects) (parts : List String) : Clear objects parts := by
  rintro place ⟨tail, htail⟩ -
  obtain ⟨above, _, -, rfl, -⟩ := List.map_eq_append_iff.mp htail.symm
  exact h above

/-- A configuration: a mapping with its objects. -/
structure Configuration where
  objects : Objects
  mapping : objects.read [] = some .mapping

section Alias

end Alias

/-! ## Configurations as trees -/

/-- `enter`, where no mapping is shared and a configuration is a tree. -/
def enter (current : Value) (part : String) : Except PyError Value := do
  if ← current.contains part then
    let old ← current.getItem part
    if old.isDict then return current else current.setItem part (.dict [])
  else current.setItem part (.dict [])

/-- `apply_set_value` on a tree, as the tree it leaves. -/
def applySetValue (current : Value) (part : String) (rest : List String) (value : Value) :
    Except PyError Value :=
  match rest with
  | [] => current.setItem part value
  | next :: rest => do
    let entered ← enter current part
    let inner ← entered.getItem part
    let child ← applySetValue inner next rest value
    entered.setItem part child

/-- One `--set` string, parsed and applied. -/
def applySetString (safeLoad : String → YamlText Value) (config : Value) (setString : String) :
    Except PyError Value := do
  let setting ← parseSetValue safeLoad Value.str setString
  applySetValue config setting.path.first setting.path.rest setting.value

/-- `merge_yaml_files` with its settings, of files which share no mapping. -/
def mergeYamlFilesSet (fs : FileSystem) (onLoad : String → Except PyError Unit)
    (safeLoad : String → YamlText Value) (filePaths setValues : List String) : Except PyError Value :=
  match mergeYamlFiles fs onLoad [] filePaths with
  | .error error => .error error.toPyError
  | .ok result => setValues.foldlM (applySetString safeLoad) (.dict result)

end IsvValidation.Config
