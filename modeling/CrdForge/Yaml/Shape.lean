import CrdForge.Yaml.Value

/-! Untyped values taken for values of known types.

Tags on a value of a known type do not matter, and an absent value stands for an empty structure, map or
list. -/
namespace CrdForge

namespace Yaml

namespace Value

/-- The value without its tags. -/
def untagged : Value → Value
  | .tagged _ value => value.untagged
  | value => value
termination_by structural x => x

def isNull : Value → Bool
  | .null => true
  | _ => false

mutual
/-- Whether a tag occurs anywhere in the value. -/
def hasTag : Value → Bool
  | .tagged _ _ => true
  | .sequence items => itemsHaveTag items
  | .mapping entries => entriesHaveTag entries
  | _ => false
termination_by structural x => x

def itemsHaveTag : List Value → Bool
  | [] => false
  | item :: rest => item.hasTag || itemsHaveTag rest
termination_by structural x => x

def entriesHaveTag : List (Value × Value) → Bool
  | [] => false
  | entry :: rest => entryHasTag entry || entriesHaveTag rest
termination_by structural x => x

def entryHasTag : Value × Value → Bool
  | (key, value) => key.hasTag || value.hasTag
termination_by structural x => x
end

/-! ### Plain types -/

def text (value : Value) : Except Misfit String :=
  match value.untagged with
  | .string text => .ok text
  | _ => .error (.expected "a string")

def flag (value : Value) : Except Misfit Bool :=
  match value.untagged with
  | .bool value => .ok value
  | _ => .error (.expected "a boolean")

def float (value : Value) : Except Misfit Float :=
  match value.untagged with
  | .number n => .ok n.toFloat
  | _ => .error (.expected "a number")

/-- Nothing for an absent value. -/
def optional {α : Type} (read : Value → Except Misfit α) (value : Value) : Except Misfit (Option α) :=
  if value.isNull then .ok none else some <$> read value

mutual
/-- The value as JSON, with the entries of objects sorted. Floats that are not finite become null. -/
def json : Value → Except Misfit Json
  | .null => .ok .null
  | .bool value => .ok (.bool value)
  | .number (.int n) => .ok (.number (.int n))
  | .number (.float x) => .ok (if x.isFinite then .number (.float x) else .null)
  | .string text => .ok (.string text)
  | .sequence items => do return .array (← itemsJson items)
  | .mapping entries => do return .object (Keyed.sort (← entriesJson entries))
  | .tagged _ _ => .error (.expected "a value without a tag")
termination_by structural x => x

def itemsJson : List Value → Except Misfit (List Json)
  | [] => .ok []
  | item :: rest => do
    let value ← item.json
    return value :: (← itemsJson rest)
termination_by structural x => x

def entriesJson : List (Value × Value) → Except Misfit (List (String × Json))
  | [] => .ok []
  | entry :: rest => do
    let value ← entryJson entry
    return value :: (← entriesJson rest)
termination_by structural x => x

def entryJson : Value × Value → Except Misfit (String × Json)
  | (key, value) => do return (← key.text, ← value.json)
termination_by structural x => x
end

/-! ### Structures -/

/-- The fields of a structure. -/
def fields (value : Value) : Except Misfit (List (String × Value)) :=
  match value.untagged with
  | .mapping entries => entries.mapM fun (key, value) => do return (← key.text, value)
  | .null => .ok []
  | _ => .error (.expected "a mapping")

/-- A field that may be missing, but not be given twice. -/
def field {α : Type} (fields : List (String × Value)) (name : String) (otherwise : α)
    (read : Value → Except Misfit α) : Except Misfit α :=
  match fields.filter (·.1 == name) with
  | [] => .ok otherwise
  | [(_, value)] => read value
  | _ => .error (.repeated name)

/-- The elements of a list. -/
def list {α : Type} (read : Value → Except Misfit α) (value : Value) : Except Misfit (List α) :=
  match value.untagged with
  | .sequence items => items.mapM read
  | .null => .ok []
  | _ => .error (.expected "a sequence")

/-- The named values of a map, in order. -/
def named {α : Type} (read : Value → Except Misfit α) (value : Value) :
    Except Misfit (List (String × α)) := do
  return (← (← fields value).mapM fun (name, value) => do return (name, ← read value)).foldl
    (fun entries entry => Keyed.put entry.1 entry.2 entries) []

end Value

end Yaml

end CrdForge
