import CrdForge.Decimal.Layout
import CrdForge.Decimal.Reading
import CrdForge.Keyed
import CrdForge.Text.Hexadecimal

/-! JSON values and their compact text. Objects keep their entries in the order they are given. -/
namespace CrdForge

/-- A number, which remembers whether it was written as an integer. -/
inductive Number where
  | int (value : Int)
  | float (value : Float)
  deriving Inhabited

/-- The float nearest to a number. -/
def Number.toFloat : Number → Float
  | .int n => if n < 0 then -Decimal.floatOf n.natAbs 0 else Decimal.floatOf n.natAbs 0
  | .float x => x

inductive Json where
  | null
  | bool (value : Bool)
  | number (value : Number)
  | string (value : String)
  | array (items : List Json)
  | object (entries : List (String × Json))
  deriving Inhabited

namespace Json

/-- A float. One that is not finite has no place in JSON and becomes null. -/
def ofFloat (x : Float) : Json := if x.isFinite then .number (.float x) else .null

def text? : Json → Option String
  | .string value => some value
  | _ => none

/-- A list of texts. -/
def strings (texts : List String) : Json := .array (texts.map .string)

/-- The entry of an object. -/
def get? (key : String) : Json → Option Json
  | .object entries => entries.lookup key
  | _ => none

/-! ### Order of entries -/

mutual
/-- The value with the entries of every object sorted by name. -/
def sorted : Json → Json
  | .array items => .array (sortedItems items)
  | .object entries => .object (Keyed.sort (sortedEntries entries))
  | value => value
termination_by structural x => x

def sortedItems : List Json → List Json
  | [] => []
  | value :: rest => value.sorted :: sortedItems rest
termination_by structural x => x

def sortedEntries : List (String × Json) → List (String × Json)
  | [] => []
  | entry :: rest => sortedEntry entry :: sortedEntries rest
termination_by structural x => x

def sortedEntry : String × Json → String × Json
  | (key, value) => (key, value.sorted)
termination_by structural x => x
end

/-! ### Text -/

/-- Floats in JSON have a sign before every exponent. -/
def floatLayout : Decimal.Layout where
  plus := "+"

/-- One character of a JSON text. -/
def escapedChar (c : Char) : List Char :=
  match c with
  | '"' => ['\\', '"']
  | '\\' => ['\\', '\\']
  | '\n' => ['\\', 'n']
  | '\r' => ['\\', 'r']
  | '\t' => ['\\', 't']
  | '\x08' => ['\\', 'b']
  | '\x0c' => ['\\', 'f']
  | c => if c.toNat < 0x20 then '\\' :: 'u' :: Text.hexPadded 4 c.toNat else [c]

/-- A JSON text between its quotes. -/
def quoted (text : String) : String :=
  String.ofList ('"' :: text.toList.flatMap escapedChar ++ ['"'])

/-- The text of a number. Floats that are not finite have none and become null. -/
def numberText : Number → String
  | .int value => toString value
  | .float value => if value.isFinite then floatLayout.float value else "null"

mutual
/-- The compact text of a value. -/
def compact : Json → String
  | .null => "null"
  | .bool value => if value then "true" else "false"
  | .number value => numberText value
  | .string value => quoted value
  | .array items => "[" ++ String.intercalate "," (compactItems items) ++ "]"
  | .object entries => "\x7b" ++ String.intercalate "," (compactEntries entries) ++ "\x7d"
termination_by structural x => x

def compactItems : List Json → List String
  | [] => []
  | value :: rest => value.compact :: compactItems rest
termination_by structural x => x

def compactEntries : List (String × Json) → List String
  | [] => []
  | entry :: rest => compactEntry entry :: compactEntries rest
termination_by structural x => x

def compactEntry : String × Json → String
  | (key, value) => quoted key ++ ":" ++ value.compact
termination_by structural x => x
end

end Json

end CrdForge
