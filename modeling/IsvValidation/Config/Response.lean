import IsvValidation.Config.Value

/-!
# Python's operations on an answer of a server

Looking a key up in what `json.loads` returned, and iterating over it.
-/

namespace IsvValidation.Config.Json

/-- `key in response`. -/
def contains (response : Json) (key : String) : Except PyError Bool :=
  match response with
  | .obj fields => .ok (fields.lookup key).isSome
  | .arr items => .ok (items.any fun item ↦ match item with | .str text => text == key | _ => false)
  | .str text => .ok (decide (key.toList <:+: text.toList))
  | other => .error (.typeError s!"argument of type '{other.typeName}' is not iterable")

/-- `response[key]`. -/
def item (response : Json) (key : String) : Except PyError Json :=
  match response with
  | .obj fields =>
    match fields.lookup key with
    | some value => .ok value
    | none => .error (.keyError key)
  | .arr _ => .error (.typeError "list indices must be integers or slices, not str")
  | .str _ => .error (.typeError "string indices must be integers, not 'str'")
  | other => .error (.typeError s!"'{other.typeName}' object is not subscriptable")

/-- What `all_items.extend(items)` appends. -/
def elements : Json → Except PyError (List Json)
  | .arr items => .ok items
  | .obj fields => .ok (fields.map fun field ↦ .str field.1)
  | .str text => .ok (text.toList.map fun c ↦ .str (String.singleton c))
  | other => .error (.typeError s!"'{other.typeName}' object is not iterable")

end IsvValidation.Config.Json
