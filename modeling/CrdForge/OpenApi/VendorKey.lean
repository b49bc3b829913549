import CrdForge.Yaml.Value

/-! Taking a vendor's key out of a YAML value, wherever it occurs.

The last entry of a mapping takes the place of the one that is removed. -/
namespace CrdForge.OpenApi

open Yaml (Value)

/-- The key of change logs, which documents are read without. -/
def changelogKey : String := "x-xgen-changelog"

def isKey (key : String) : Value → Bool
  | .string text => text == key
  | _ => false

/-- Fills the place of the first element that passes the test with the last one. -/
def swapRemove {α : Type} (test : α → Bool) (items : List α) : List α :=
  match items.findIdx? test with
  | none => items
  | some i =>
    if i + 1 = items.length then items.dropLast
    else items.take i ++ items.getLast?.toList ++ (items.drop (i + 1)).dropLast

mutual
/-- The value without the key. -/
def withoutKey (key : String) : Value → Value
  | .sequence items => .sequence (withoutKeyInItems key items)
  | .mapping entries =>
    .mapping (swapRemove (fun entry => isKey key entry.1) (withoutKeyInEntries key entries))
  | .tagged tag value => .tagged tag (withoutKey key value)
  | value => value
termination_by structural x => x

def withoutKeyInItems (key : String) : List Value → List Value
  | [] => []
  | item :: rest => withoutKey key item :: withoutKeyInItems key rest
termination_by structural x => x

def withoutKeyInEntries (key : String) : List (Value × Value) → List (Value × Value)
  | [] => []
  | entry :: rest => withoutKeyInEntry key entry :: withoutKeyInEntries key rest
termination_by structural x => x

def withoutKeyInEntry (key : String) : Value × Value → Value × Value
  | (name, value) => (name, withoutKey key value)
termination_by structural x => x
end

end CrdForge.OpenApi
