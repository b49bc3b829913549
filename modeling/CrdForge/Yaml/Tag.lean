/-! Tags of YAML nodes.

A tag is written as characters and escaped bytes, and the bytes need not make up a text. For reading it
matters only whether the tag is one of the core schema, whether it starts with an exclamation mark, and
then what its name is. -/
namespace CrdForge.Yaml

inductive Tag where
  | null
  | bool
  | integer
  | float
  /-- A tag of its own, which starts with an exclamation mark. -/
  | named (name : String)
  /-- A tag that starts with an exclamation mark and is no text. -/
  | garbled
  | other
  deriving DecidableEq

namespace Tag

/-- A name without the exclamation mark that starts it, unless it is nothing else. -/
def withoutMark : List Char → List Char
  | '!' :: c :: rest => c :: rest
  | name => name

/-- The tag that a text spells. The mark of a tag of its own is not part of the name, and neither is a
second one. -/
def ofText (text : String) : Tag :=
  match text with
  | "tag:yaml.org,2002:null" => .null
  | "tag:yaml.org,2002:bool" => .bool
  | "tag:yaml.org,2002:int" => .integer
  | "tag:yaml.org,2002:float" => .float
  | text =>
    if text.toList.head? = some '!' then .named (String.ofList (withoutMark (withoutMark text.toList)))
    else .other

/-- The tag that some bytes spell. -/
def ofBytes (bytes : List UInt8) : Tag :=
  match String.fromUTF8? ⟨bytes.toArray⟩ with
  | some text => ofText text
  | none => if bytes.head? = some 0x21 then .garbled else .other

end Tag

end CrdForge.Yaml
