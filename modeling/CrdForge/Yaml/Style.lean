import CrdForge.Yaml.Cursor
import CrdForge.Yaml.Scalar
import CrdForge.Yaml.Token

/-! How a text is best written as a scalar.

A text with a line feed is written as a literal block, one that would be taken for something else between
single quotes, and any other without quotes. Where the text does not allow for that it is quoted, and double
quotes allow for every text. -/
namespace CrdForge.Yaml

/-- Characters that a text outside double quotes may hold. -/
def isWritable (c : Char) : Bool :=
  c == '\n' || (' ' ≤ c && c ≤ '~') || ('\u00a0' ≤ c && c != '\ufeff' && c != '\ufffe' && c != '\uffff')

/-! ### What stands next to what -/

/-- Whether a character of the one kind has one of the other right after it. -/
def hasPair (before after : Char → Bool) : List Char → Bool
  | c :: d :: rest => (before c && after d) || hasPair before after (d :: rest)
  | _ => false

def isSpace (c : Char) : Bool := c == ' '

/-- Whether the text starts or ends with a character of a kind. -/
def startsOrEnds (kind : Char → Bool) (chars : List Char) : Bool :=
  chars.head?.any kind || chars.getLast?.any kind

/-! ### Marks that unquoted text may not hold -/

/-- Whether a character at the start would be taken for a mark. -/
def opensMark : List Char → Bool
  | '-' :: '-' :: '-' :: _ | '.' :: '.' :: '.' :: _ => true
  | c :: rest =>
    "#,[]\x7b\x7d&*!|>'\"%@`".toList.contains c || ("-?:".toList.contains c && endsWord rest)
  | [] => false

/-- Whether a colon before a blank or a number sign after one would be taken for a mark. -/
def holdsMark : List Char → Bool
  | c :: d :: rest =>
    (c == ':' && endsWord (d :: rest)) || ((isBlank c || isBreak c) && d == '#') || holdsMark (d :: rest)
  | [c] => c == ':'
  | [] => false

/-! ### What a text allows for -/

/-- Neither quotes nor a block can show characters that are not writable or spaces before a line break. -/
def allowsBlock (chars : List Char) : Bool :=
  chars.all isWritable && !hasPair isSpace isBreak chars && !chars.getLast?.any isSpace

def allowsSingleQuotes (chars : List Char) : Bool :=
  chars.all isWritable && !hasPair isSpace isBreak chars && !hasPair isBreak isSpace chars

def allowsPlain (chars : List Char) : Bool :=
  chars.all isWritable && !chars.any isBreak && !startsOrEnds isSpace chars && !opensMark chars &&
    !holdsMark chars

/-! ### The style -/

/-- Whether the text without quotes would be taken for something else. -/
def isAmbiguous (text : String) : Bool :=
  Scalar.hasNeedlessZero text.toList ||
    match Scalar.ofPlain text with
    | .text => false
    | _ => true

/-- Whether a text is written as a key on one line with its value. -/
def isSimpleKey (text : String) : Bool := text.utf8ByteSize ≤ 128 && !text.toList.any isBreak

/-- The style in which a text is written. -/
def styleOf (text : String) : ScalarStyle :=
  let chars := text.toList
  let quoted := if allowsSingleQuotes chars then .singleQuoted else .doubleQuoted
  if chars.contains '\n' then (if allowsBlock chars then .literal else .doubleQuoted)
  else if isAmbiguous text || !allowsPlain chars then quoted
  else .plain

end CrdForge.Yaml
