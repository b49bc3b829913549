import CrdForge.Yaml.Style

/-! YAML texts of JSON values, in block style.

Entries of a mapping stand on lines of their own, and so do the elements of a sequence, which are not
indented deeper than the key that they belong to. What an element nests starts on the line of its dash. -/
namespace CrdForge.Yaml

/-! ### Scalars -/

def spaces (count : Nat) : List Char := List.replicate count ' '

/-- Hexadecimal digits in upper case. -/
def upperHex (width n : Nat) : List Char := (Text.hexPadded width n).map Char.toUpper

/-- One character between double quotes. -/
def escapedChar (c : Char) : List Char :=
  match c with
  | '\x00' => ['\\', '0']
  | '\x07' => ['\\', 'a']
  | '\x08' => ['\\', 'b']
  | '\t' => ['\\', 't']
  | '\n' => ['\\', 'n']
  | '\x0b' => ['\\', 'v']
  | '\x0c' => ['\\', 'f']
  | '\r' => ['\\', 'r']
  | '\x1b' => ['\\', 'e']
  | '"' => ['\\', '"']
  | '\\' => ['\\', '\\']
  | '\u0085' => ['\\', 'N']
  | '\u2028' => ['\\', 'L']
  | '\u2029' => ['\\', 'P']
  | c =>
    if isWritable c then [c]
    else if c.toNat ≤ 0xff then '\\' :: 'x' :: upperHex 2 c.toNat
    else if c.toNat ≤ 0xffff then '\\' :: 'u' :: upperHex 4 c.toNat
    else '\\' :: 'U' :: upperHex 8 c.toNat

/-- Text that may hold line breaks. After a break the next line is indented, unless it is empty. -/
def indented (indent : Nat) (afterBreak : Bool) : List Char → List Char
  | [] => []
  | c :: rest =>
    if isBreak c then c :: indented indent true rest
    else (if afterBreak then spaces indent else []) ++ c :: indented indent false rest

/-- Text between single quotes. A line break of its own kind stays what it is. -/
def singleQuoted (indent : Nat) (chars : List Char) : List Char :=
  let doubled := chars.flatMap fun c => if c == '\'' then ['\'', '\''] else [c]
  '\'' :: indented indent false doubled ++
    (if chars.getLast?.any isBreak then spaces indent else []) ++ ['\'']

/-- What follows the bar of a literal block: how deep it is indented, if that cannot be seen, and whether
its last line break counts. -/
def literalHints (chars : List Char) : List Char :=
  (if chars.head?.any fun c => isSpace c || isBreak c then ['2'] else []) ++
  match chars.reverse with
  | [] => ['-']
  | last :: before =>
    if !isBreak last then ['-']
    else if before.head?.all isBreak then ['+']
    else []

/-- A text as a scalar. The lines of a block or of quoted text are indented. -/
def scalarText (indent : Nat) (text : String) : String :=
  let chars := text.toList
  match styleOf text with
  | .literal => String.ofList ('|' :: literalHints chars ++ '\n' :: indented indent true chars)
  | .singleQuoted => String.ofList (singleQuoted indent chars)
  | .doubleQuoted => String.ofList ('"' :: chars.flatMap escapedChar ++ ['"'])
  | _ => text

/-- Floats in YAML have no plus sign in their exponents. -/
def floatLayout : Decimal.Layout where
  plus := ""

def numberText : Number → String
  | .int value => toString value
  | .float value => if value.isFinite then floatLayout.float value else "null"

/-! ### Values -/

/-- Ends a line, unless it ends already. -/
def endLine (text : String) : String :=
  if text.toList.getLast?.any isBreak then text else text ++ "\n"

def margin (indent : Nat) : String := String.ofList (spaces indent)

/-- What stands between the colon of a key and its value. -/
def afterColon (indent : Nat) : Json → String
  | .object (_ :: _) => "\n" ++ margin (indent + 2)
  | .array (_ :: _) => "\n" ++ margin indent
  | _ => " "

/-- How deep the value of a key nests. Only sequences are not indented deeper than the key. -/
def valueIndent (indent : Nat) : Json → Nat
  | .array _ => indent
  | _ => indent + 2

mutual
/-- The lines of a value. The margin of the first line is already there. Lines of a scalar are
indented just as far as the value. -/
def valueText (indent : Nat) : Json → String
  | .null => "null\n"
  | .bool value => if value then "true\n" else "false\n"
  | .number value => numberText value ++ "\n"
  | .string text => endLine (scalarText indent text)
  | .array items =>
    if items.isEmpty then "[]\n" else String.intercalate (margin indent) (itemTexts indent items)
  | .object entries =>
    if entries.isEmpty then "\x7b\x7d\n" else String.intercalate (margin indent) (entryTexts indent entries)
termination_by structural x => x

def itemTexts (indent : Nat) : List Json → List String
  | [] => []
  | item :: rest => ("- " ++ valueText (indent + 2) item) :: itemTexts indent rest
termination_by structural x => x

def entryTexts (indent : Nat) : List (String × Json) → List String
  | [] => []
  | entry :: rest => entryText indent entry :: entryTexts indent rest
termination_by structural x => x

def entryText (indent : Nat) : String × Json → String
  | (key, value) =>
    if isSimpleKey key then
      scalarText (indent + 2) key ++ ":" ++ afterColon indent value ++
        valueText (valueIndent indent value) value
    else
      "? " ++ endLine (scalarText (indent + 2) key) ++ margin indent ++ ": " ++ valueText (indent + 2) value
termination_by structural x => x
end

/-- The text of an object or an array. -/
def write (value : Json) : String := valueText 0 value

/-- The text of a document among others. -/
def writeDocument (value : Json) : String := "---\n" ++ write value

end CrdForge.Yaml
