/-! Places in a YAML text and the characters that matter there. -/
namespace CrdForge.Yaml

/-- A place in a text: how many bytes and lines stand before it, and how many characters of its own
line. -/
structure Place where
  index : Nat
  line : Nat
  column : Nat

/-- Why a text is not well-formed YAML. -/
structure Problem where
  what : String
  place : Place

def Problem.message (problem : Problem) : String :=
  problem.what ++ " at line " ++ toString (problem.place.line + 1) ++ " column " ++
    toString (problem.place.column + 1)

/-- What is still to be read, and where it stands. -/
structure Cursor where
  rest : List Char
  place : Place

/-! ### Characters -/

/-- Line feed, carriage return, next line, and the line and paragraph separators. -/
def isBreak (c : Char) : Bool :=
  c == '\n' || c == '\r' || c == '\u0085' || c == '\u2028' || c == '\u2029'

def isBlank (c : Char) : Bool := c == ' ' || c == '\t'

/-- Characters of anchors, tag handles and directive names. -/
def isWord (c : Char) : Bool := c.isAlphanum || c == '_' || c == '-'

def isFlowIndicator (c : Char) : Bool := c == ',' || c == '[' || c == ']' || c == '{' || c == '}'

/-- Whether a text may hold the character at all. -/
def isAllowed (c : Char) : Bool :=
  c == '\t' || c == '\n' || c == '\r' || (' ' ≤ c && c ≤ '~') || c == '\u0085' ||
    ('\u00a0' ≤ c && c != '\ufffe' && c != '\uffff')

/-- Whether nothing, a blank or a line break comes first. -/
def endsWord : List Char → Bool
  | [] => true
  | c :: _ => isBlank c || isBreak c

/-! ### Moving -/

namespace Cursor

def start (text : List Char) : Cursor := ⟨text, ⟨0, 0, 0⟩⟩

def problem (cursor : Cursor) (what : String) : Problem := ⟨what, cursor.place⟩

/-- The index past some characters. -/
def indexAfter (cursor : Cursor) (count : Nat) : Nat :=
  (cursor.rest.take count).foldl (fun index c => index + c.utf8Size) cursor.place.index

/-- Past some characters of the line. -/
def skip (cursor : Cursor) (count : Nat) : Cursor :=
  ⟨cursor.rest.drop count,
    { cursor.place with index := cursor.indexAfter count, column := cursor.place.column + count }⟩

/-- The characters of the line for which the test holds, and what follows them. -/
def span (cursor : Cursor) (test : Char → Bool) : List Char × Cursor :=
  let taken := cursor.rest.takeWhile test
  (taken, cursor.skip taken.length)

def skipWhile (cursor : Cursor) (test : Char → Bool) : Cursor := (cursor.span test).2

/-- Past a line break of some characters. -/
def newLine (cursor : Cursor) (count : Nat) : Cursor :=
  ⟨cursor.rest.drop count, ⟨cursor.indexAfter count, cursor.place.line + 1, 0⟩⟩

/-- The line break that comes first, as it is kept in texts, and what follows it. The separators are
kept as they are, all others become line feeds. -/
def lineBreak? (cursor : Cursor) : Option (List Char × Cursor) :=
  match cursor.rest with
  | '\r' :: '\n' :: _ => some (['\n'], cursor.newLine 2)
  | c :: _ =>
    if c == '\u2028' || c == '\u2029' then some ([c], cursor.newLine 1)
    else if isBreak c then some (['\n'], cursor.newLine 1)
    else none
  | [] => none

/-- Past the line break that comes first, if one does. -/
def skipBreak (cursor : Cursor) : Cursor := (cursor.lineBreak?.map (·.2)).getD cursor

/-- Whether a line starts here with three dashes or three dots that stand alone. -/
def atDocumentMark (cursor : Cursor) : Bool :=
  cursor.place.column == 0 && match cursor.rest with
    | '-' :: '-' :: '-' :: rest => endsWord rest
    | '.' :: '.' :: '.' :: rest => endsWord rest
    | _ => false

end Cursor

end CrdForge.Yaml
