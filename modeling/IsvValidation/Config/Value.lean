import Mathlib.Data.List.Infix
import Mathlib.Data.Rat.Defs

/-!
# Python values read from YAML and JSON

`Value` is what `yaml.safe_load` can put into a configuration, dates and byte strings included;
`Json` is what `json.loads` can return for the output of a step. Mappings keep their entries in
order. The partial operations of Python on these values return the exception they would raise.
-/

namespace IsvValidation.Config

/-- Exceptions which the modelled code can meet, with the text it shows. -/
inductive PyError where
  | valueError (message : String)
  | typeError (message : String)
  | keyError (message : String)
  | attributeError (message : String)
  | osError (message : String)
  | keyboardInterrupt
  | other (name message : String)
  deriving DecidableEq

/-- Scalars of a YAML document. A finite float is the rational number it denotes. -/
inductive Scalar where
  | none
  | bool (value : Bool)
  | int (value : Int)
  | float (value : Rat)
  | nonFinite (text : String)
  | str (value : String)
  | date (text : String)
  | timestamp (text : String)
  | binary (bytes : List UInt8)
  deriving DecidableEq

namespace Scalar

/-- Python's truth value. -/
def truthy : Scalar → Bool
  | none => false
  | bool value => value
  | int value => value != 0
  | float value => value != 0
  | nonFinite _ => true
  | str value => value != ""
  | date _ => true
  | timestamp _ => true
  | binary bytes => !bytes.isEmpty

/-- Scalars which `json.dump` can write, as values and as mapping keys alike. -/
def jsonable : Scalar → Bool
  | date _ => false
  | timestamp _ => false
  | binary _ => false
  | _ => true

end Scalar

/-- A value of a configuration mapping. -/
inductive Value where
  | scalar (value : Scalar)
  | list (items : List Value)
  | dict (items : List (Scalar × Value))
  | set (members : List Scalar)

/-- A Python mapping in entry order. -/
abbrev Items := List (Scalar × Value)

namespace Value

abbrev str (text : String) : Value := .scalar (.str text)
abbrev null : Value := .scalar .none

def truthy : Value → Bool
  | scalar value => value.truthy
  | list items => !items.isEmpty
  | dict items => !items.isEmpty
  | set members => !members.isEmpty

def isDict : Value → Bool
  | dict _ => true
  | _ => false

def isNull : Value → Bool
  | scalar .none => true
  | _ => false

/-- The string a value is, if it is one. -/
def str? : Value → Option String
  | scalar (.str text) => some text
  | _ => none

/-- The `value or {}` idiom. -/
def orEmpty (value : Value) : Value := if value.truthy then value else dict []

/-- `value.get(key)` where the value is a mapping. -/
def get? : Value → String → Option Value
  | dict items, key => items.lookup (.str key)
  | _, _ => none

mutual

/-- Whether `json.dump` accepts the value: no date, byte string or set at any depth. -/
def jsonable : Value → Bool
  | scalar value => value.jsonable
  | list items => jsonableList items
  | dict items => jsonableItems items
  | set _ => false

def jsonableList : List Value → Bool
  | [] => true
  | value :: rest => value.jsonable && jsonableList rest

def jsonableItems : List (Scalar × Value) → Bool
  | [] => true
  | (key, value) :: rest => key.jsonable && value.jsonable && jsonableItems rest

end

/-- The elements `set(value)` collects; unhashable elements and scalars raise. -/
def toSet : Value → Except PyError (List Scalar)
  | scalar (.str text) => .ok (text.toList.map fun c ↦ .str (String.singleton c))
  | scalar (.binary bytes) => .ok (bytes.map fun b ↦ .int b.toNat)
  | scalar _ => .error (.typeError "object is not iterable")
  | dict items => .ok (items.map Prod.fst)
  | set members => .ok members
  | list items => items.mapM fun item ↦
      match item with
      | scalar value => .ok value
      | _ => .error (.typeError "unhashable type")

/-- `key in value` for a string key. -/
def contains (value : Value) (key : String) : Except PyError Bool :=
  match value with
  | dict items => .ok (items.any fun item ↦ item.1 == .str key)
  | list items => .ok (items.any fun item ↦ item.str? == some key)
  | set members => .ok (members.contains (.str key))
  | scalar (.str text) => .ok (decide (key.toList <:+: text.toList))
  | scalar _ => .error (.typeError "argument is not iterable")

/-- `value[key]` for a string key. -/
def getItem (value : Value) (key : String) : Except PyError Value :=
  match value with
  | dict items =>
    match items.lookup (.str key) with
    | some item => .ok item
    | none => .error (.keyError key)
  | _ => .error (.typeError "indices must be integers")

/-- `items[key] = item`, keeping the position of a key that is present. -/
def assignKey (key : Scalar) (item : Value) : Items → Items
  | [] => [(key, item)]
  | (other, old) :: rest =>
    if other = key then (other, item) :: rest else (other, old) :: assignKey key item rest

def assign (key : String) (item : Value) (items : Items) : Items := assignKey (.str key) item items

theorem lookup_assignKey (key : Scalar) (value : Value) (items : Items) :
    (assignKey key value items).lookup key = some value := by
  induction items with
  | nil => simp [assignKey]
  | cons item rest ih =>
    match item with
    | (other, old) =>
      rw [assignKey]
      by_cases h : other = key
      · simp [h]
      · rw [if_neg h, List.lookup_cons, beq_eq_false_iff_ne.mpr (Ne.symm h), ih]

theorem lookup_assignKey_of_ne {key other : Scalar} (h : other ≠ key) (value : Value)
    (items : Items) : (assignKey key value items).lookup other = items.lookup other := by
  induction items with
  | nil => simp [assignKey, List.lookup_cons, beq_eq_false_iff_ne.mpr h]
  | cons item rest ih =>
    match item with
    | (first, old) =>
      rw [assignKey]
      by_cases hfirst : first = key
      · rw [if_pos hfirst, List.lookup_cons, List.lookup_cons, hfirst, beq_eq_false_iff_ne.mpr h]
      · rw [if_neg hfirst, List.lookup_cons, List.lookup_cons, ih]

/-- `items.pop(key, None)`, as the mapping it leaves. -/
def pop (key : String) (items : Items) : Items := items.filter fun item ↦ item.1 != .str key

/-- `value[key] = item` for a string key. -/
def setItem (value : Value) (key : String) (item : Value) : Except PyError Value :=
  match value with
  | dict items => .ok (dict (assign key item items))
  | _ => .error (.typeError "object does not support item assignment")

end Value

/-- What `json.loads` returns. -/
inductive Json where
  | null
  | bool (value : Bool)
  | int (value : Int)
  | float (value : Rat)
  | nonFinite (text : String)
  | str (value : String)
  | arr (items : List Json)
  | obj (fields : List (String × Json))

namespace Json

def truthy : Json → Bool
  | null => false
  | bool value => value
  | int value => value != 0
  | float value => value != 0
  | nonFinite _ => true
  | str value => value != ""
  | arr items => !items.isEmpty
  | obj fields => !fields.isEmpty

def isObject : Json → Bool
  | obj _ => true
  | _ => false

/-- The name of the Python type. -/
def typeName : Json → String
  | null => "NoneType"
  | bool _ => "bool"
  | int _ => "int"
  | float _ => "float"
  | nonFinite _ => "float"
  | str _ => "str"
  | arr _ => "list"
  | obj _ => "dict"

/-- `output.get(key)`; only a mapping has this method. -/
def get (json : Json) (key : String) : Except PyError (Option Json) :=
  match json with
  | obj fields => .ok (fields.lookup key)
  | other => .error (.attributeError s!"'{other.typeName}' object has no attribute 'get'")

theorem get_of_isObject {json : Json} (h : json.isObject = true) (key : String) :
    ∃ value, json.get key = .ok value := by
  cases json with
  | obj fields => exact ⟨fields.lookup key, rfl⟩
  | _ => simp [isObject] at h

mutual

def toValue : Json → Value
  | null => .null
  | bool value => .scalar (.bool value)
  | int value => .scalar (.int value)
  | float value => .scalar (.float value)
  | nonFinite text => .scalar (.nonFinite text)
  | str value => .str value
  | arr items => .list (toValues items)
  | obj fields => .dict (toItems fields)

def toValues : List Json → List Value
  | [] => []
  | json :: rest => json.toValue :: toValues rest

def toItems : List (String × Json) → Items
  | [] => []
  | (key, json) :: rest => (.str key, json.toValue) :: toItems rest

end

end Json

end IsvValidation.Config
