import CrdForge.Yaml.Node
import CrdForge.Yaml.Scalar

/-! Untyped YAML values.

A value forgets how scalars were written and keeps the names of tags that are a node's own. Mappings keep
the order of their entries and have no key twice. -/
namespace CrdForge.Yaml

inductive Value where
  | null
  | bool (value : Bool)
  | number (value : Number)
  | string (value : String)
  | sequence (items : List Value)
  | mapping (entries : List (Value × Value))
  | tagged (tag : String) (value : Value)
  deriving Inhabited

/-- Why a node has no value, or a value not the expected shape. -/
inductive Misfit where
  | expected (what : String)
  | missing (field : String)
  | repeated (field : String)
  | beyondBounds

def Misfit.message : Misfit → String
  | .expected what => "expected " ++ what
  | .missing field => "missing field " ++ field
  | .repeated field => "duplicate entry " ++ field
  | .beyondBounds => "nested too deeply"

/-! ### Equality of keys -/

/-- Numbers are the same if both are integers and equal, or neither is and both are equal floats or
neither is a number. -/
def sameNumber : Number → Number → Bool
  | .int a, .int b => a == b
  | .float a, .float b => a == b || (a.isNaN && b.isNaN)
  | _, _ => false

namespace Value

mutual
/-- Whether two values are the same. The order of entries of a mapping does not matter. -/
def same : Value → Value → Bool
  | .null, .null => true
  | .bool a, .bool b => a == b
  | .number a, .number b => sameNumber a b
  | .string a, .string b => a == b
  | .sequence a, .sequence b => sameItems a b
  | .mapping a, .mapping b => a.length == b.length && entriesWithin a b
  | .tagged s a, .tagged t b => s == t && same a b
  | _, _ => false
termination_by structural x => x

def sameItems : List Value → List Value → Bool
  | [], [] => true
  | a :: as, b :: bs => same a b && sameItems as bs
  | _, _ => false
termination_by structural x => x

/-- Whether each entry is also one of the second mapping's. -/
def entriesWithin : List (Value × Value) → List (Value × Value) → Bool
  | [], _ => true
  | entry :: rest, others => entryWithin entry others && entriesWithin rest others
termination_by structural x => x

def entryWithin : Value × Value → List (Value × Value) → Bool
  | (key, value), others => others.any fun other => same key other.1 && same value other.2
termination_by structural x => x
end

/-- Whether the mapping has an entry with the key. -/
def hasKey (key : Value) (entries : List (Value × Value)) : Bool :=
  entries.any fun entry => entry.1.same key

end Value

/-! ### Values of nodes -/

def Scalar.value (text : String) : Scalar → Except Misfit Value
  | .null => .ok .null
  | .bool value => .ok (.bool value)
  | .number value => .ok (.number value)
  | .hugeInteger => .error (.expected "an integer of at most 64 bits")
  | .text => .ok (.string text)

/-- The value of a scalar. The tags of the core schema say what the text must be; a tag of its own leaves it
to the text, and any other tag makes it a text. -/
def scalarValue (tag : Option Tag) (style : ScalarStyle) (text : String) : Except Misfit Value :=
  let untagged : Except Misfit Value :=
    if style = .plain then (Scalar.ofPlain text).value text else .ok (.string text)
  match tag with
  | none | some (.named _) | some .garbled => untagged
  | some .other => .ok (.string text)
  | some .bool =>
    match Scalar.bool? text with
    | some value => .ok (.bool value)
    | none => .error (.expected "a boolean")
  | some .integer =>
    match Scalar.integer? text.toList with
    | some n => (Scalar.ofInteger n).value text
    | none => .error (.expected "an integer")
  | some .float =>
    match Scalar.float? text.toList with
    | some x => .ok (.number (.float x))
    | none => .error (.expected "a float")
  | some .null => if text != "" && Scalar.isNull text then .ok .null else .error (.expected "null")

/-- The value of a node, with its tag if that is one of its own. -/
def withTag (tag : Option Tag) (value : Value) : Value :=
  match tag with
  | some (.named name) => .tagged name value
  | _ => value

mutual
/-- The untyped value of a node. -/
def Node.value : Node → Except Misfit Value
  | .scalar tag style text => do return withTag tag (← scalarValue tag style text)
  | .sequence tag items => do return withTag tag (.sequence (← itemValues items))
  | .mapping tag entries => do return withTag tag (.mapping (← entryValues entries []))
  | .beyondBounds => .error .beyondBounds
termination_by structural x => x

def itemValues : List Node → Except Misfit (List Value)
  | [] => .ok []
  | item :: rest => do
    let value ← item.value
    return value :: (← itemValues rest)
termination_by structural x => x

/-- The entries of a mapping after those already read. -/
def entryValues : List (Node × Node) → List (Value × Value) → Except Misfit (List (Value × Value))
  | [], read => .ok read
  | entry :: rest, read => do
    let (key, value) ← entryValue entry
    if Value.hasKey key read then throw (.repeated "of a mapping")
    entryValues rest (read ++ [(key, value)])
termination_by structural x => x

def entryValue : Node × Node → Except Misfit (Value × Value)
  | (key, value) => do return (← key.value, ← value.value)
termination_by structural x => x
end

end CrdForge.Yaml
