import CrdForge.Yaml.Value

/-! Documents taken for values of known types, without untyped values in between.

A text is what a scalar is written with, whatever it would mean. A missing value stands for an empty
structure or list and for an optional value that is not there; the words for null do only the latter.
Aliases are followed where a value is read and nowhere else, so what no type asks for costs nothing. -/
namespace CrdForge.Yaml

/-- Reading a part of a document. The state is how many aliases may still be followed. -/
abbrev Reading := ReaderT Document (StateT Nat (Except Misfit))

/-- The tree of a JSON value. Texts are quoted. -/
def Tree.ofJson : Json → Tree
  | .null => .scalar none .plain "null"
  | .bool value => .scalar none .plain (if value then "true" else "false")
  | .number n => .scalar none .plain (Json.numberText n)
  | .string text => .scalar none .doubleQuoted text
  | .array items => .sequence none (itemsOfJson items)
  | .object entries => .mapping none (entriesOfJson entries)
where
  itemsOfJson : List Json → List Tree
    | [] => []
    | item :: rest => ofJson item :: itemsOfJson rest
  entriesOfJson : List (String × Json) → List (Tree × Tree)
    | [] => []
    | (name, value) :: rest => (.scalar none .doubleQuoted name, ofJson value) :: entriesOfJson rest

/-- Whether nothing is written. -/
def Tree.isAbsent : Tree → Bool
  | .scalar _ style text => style == .plain && text == ""
  | _ => false

namespace Reading

/-- What a document is read as. -/
def run {α : Type} (read : Tree → Reading α) (document : Document) : Except Misfit α := do
  let (value, _) ← (read document.root) document (aliasesPerNode * document.size)
  return value

/-- What stands here, past an alias. -/
def follow (tree : Tree) : Reading Tree := do
  match (← read).follow tree (← get) with
  | (some target, left) =>
    set left
    return target
  | (none, _) => throw .beyondBounds

/-! ### Plain types -/

def text (tree : Tree) : Reading String := do
  match ← follow tree with
  | .scalar _ _ text => return text
  | _ => throw (.expected "a string")

def flag (tree : Tree) : Reading Bool := do
  match ← follow tree with
  | .scalar tag style text =>
    if style = .plain || (style = .literal && tag = some .bool) then
      match Scalar.bool? text with
      | some value => return value
      | none => throw (.expected "a boolean")
    else throw (.expected "a boolean")
  | _ => throw (.expected "a boolean")

/-- Nothing for a missing value and for null. A tag makes a value of both, unless it is null's. -/
def optional {α : Type} (read : Tree → Reading α) (tree : Tree) : Reading (Option α) := do
  match ← follow tree with
  | .scalar none .plain text =>
    if Scalar.isNull text then return none else some <$> read (.scalar none .plain text)
  | .scalar (some .null) .plain text =>
    if text != "" && Scalar.isNull text then return none else throw (.expected "null")
  | tree => some <$> read tree

/-! ### Structures -/

/-- The fields of a structure. -/
def fields (tree : Tree) : Reading (List (String × Tree)) := do
  match ← follow tree with
  | .mapping _ entries => entries.mapM fun entry => do return (← text entry.1, entry.2)
  | tree => if tree.isAbsent then return [] else throw (.expected "a mapping")

/-- The elements of a list. -/
def list {α : Type} (read : Tree → Reading α) (tree : Tree) : Reading (List α) := do
  match ← follow tree with
  | .sequence _ items => items.mapM read
  | tree => if tree.isAbsent then return [] else throw (.expected "a sequence")

/-- A field that may be missing, but not be given twice. -/
def field {α : Type} (fields : List (String × Tree)) (name : String) (otherwise : α)
    (read : Tree → Reading α) : Reading α :=
  match fields.filter (·.1 == name) with
  | [] => return otherwise
  | [(_, tree)] => read tree
  | _ => throw (.repeated name)

/-- A field that must be given. -/
def requiredField {α : Type} (fields : List (String × Tree)) (name : String)
    (read : Tree → Reading α) : Reading α :=
  match fields.filter (·.1 == name) with
  | [] => throw (.missing name)
  | [(_, tree)] => read tree
  | _ => throw (.repeated name)

end Reading

end CrdForge.Yaml
