import CrdForge.Yaml.ScalarText
import CrdForge.Yaml.Token

/-! From the characters of a YAML text to its tokens.

Indentation opens and closes blocks. Whether a scalar, an alias or a flow collection is a key shows only
at the colon after it, so the place of each possible key is kept until then; a key stands on one line and
is at most 1024 bytes away from its colon. -/
namespace CrdForge.Yaml

/-- A place where a key may have started. -/
structure KeyStart where
  /-- A block mapping goes on here, so that something other than a key is an error. -/
  required : Bool
  /-- How many tokens stand before it. -/
  tokens : Nat
  place : Place

structure Lexer where
  cursor : Cursor
  /-- More than the number of characters of the whole text, which bounds every loop. -/
  bound : Nat
  tokens : Array Token
  /-- The possible key of the current collection. -/
  pending : Option KeyStart
  /-- The possible keys of the collections around the current flow collection. -/
  outer : List (Option KeyStart)
  /-- The column of the current block, -1 outside all of them. -/
  indent : Int
  /-- The columns of the blocks around it. -/
  indents : List Int
  /-- Whether a key may start here. -/
  keyAllowed : Bool

namespace Lexer

def start (text : List Char) : Lexer :=
  ⟨Cursor.start text, text.length + 2, #[], none, [], -1, [], true⟩

def inFlow (lexer : Lexer) : Bool := !lexer.outer.isEmpty

def emit (lexer : Lexer) (token : Token) : Lexer := { lexer with tokens := lexer.tokens.push token }

def skip (lexer : Lexer) (count : Nat) : Lexer := { lexer with cursor := lexer.cursor.skip count }

def fail {α : Type} (lexer : Lexer) (what : String) : Except Problem α := .error (lexer.cursor.problem what)

/-! ### Blanks, comments and line breaks -/

/-- Past everything before the next token. Tabs count as blanks where no key may start. -/
def toNextToken : Nat → Lexer → Lexer
  | 0, lexer => lexer
  | fuel + 1, lexer =>
    let cursor := lexer.cursor
    let cursor :=
      if cursor.place.column == 0 && cursor.rest.head? == some '\ufeff' then cursor.skip 1 else cursor
    let cursor := cursor.skipWhile fun c => c == ' ' || (c == '\t' && (lexer.inFlow || !lexer.keyAllowed))
    let cursor := if cursor.rest.head? == some '#' then cursor.skipWhile (!isBreak ·) else cursor
    match cursor.lineBreak? with
    | some (_, next) =>
      toNextToken fuel { lexer with cursor := next, keyAllowed := lexer.keyAllowed || !lexer.inFlow }
    | none => { lexer with cursor := cursor }

/-! ### Blocks -/

/-- Opens a block at a column to the right of the current one. -/
def openBlock (lexer : Lexer) (column : Nat) (position : Nat) (token : Token) : Lexer :=
  if !lexer.inFlow && lexer.indent < (column : Int) then
    { lexer with
      indent := column
      indents := lexer.indent :: lexer.indents
      tokens := lexer.tokens.insertIdxIfInBounds position token }
  else lexer

/-- Closes the blocks to the right of a column, innermost first. -/
def closeBlocks (column : Int) : List Int → Int → Array Token → Array Token × Int × List Int
  | [], indent, tokens => (tokens, indent, [])
  | around :: indents, indent, tokens =>
    if column < indent then closeBlocks column indents around (tokens.push .blockEnd)
    else (tokens, indent, around :: indents)

def unroll (lexer : Lexer) (column : Int) : Lexer :=
  if lexer.inFlow then lexer
  else
    let (tokens, indent, indents) := closeBlocks column lexer.indents lexer.indent lexer.tokens
    { lexer with tokens := tokens, indent := indent, indents := indents }

/-! ### Keys -/

/-- Whether a possible key can no longer be one. -/
def KeyStart.isStale (key : KeyStart) (place : Place) : Bool :=
  key.place.line < place.line || key.place.index + 1024 < place.index

def freshKey (lexer : Lexer) (key : Option KeyStart) : Except Problem (Option KeyStart) :=
  match key with
  | none => .ok none
  | some start =>
    if KeyStart.isStale start lexer.cursor.place then
      if start.required then lexer.fail "could not find the expected colon" else .ok none
    else .ok (some start)

/-- Forgets the possible keys that ended before the current place. -/
def dropStaleKeys (lexer : Lexer) : Except Problem Lexer := do
  let pending ← lexer.freshKey lexer.pending
  let outer ← lexer.outer.mapM lexer.freshKey
  return { lexer with pending := pending, outer := outer }

/-- Forgets the possible key of the current collection. -/
def removeKey (lexer : Lexer) : Except Problem Lexer :=
  match lexer.pending with
  | some start =>
    if start.required then lexer.fail "could not find the expected colon"
    else .ok { lexer with pending := none }
  | none => .ok lexer

/-- Notes that a key may start here. -/
def saveKey (lexer : Lexer) : Except Problem Lexer :=
  if lexer.keyAllowed then do
    let required := !lexer.inFlow && lexer.indent == (lexer.cursor.place.column : Int)
    let lexer ← lexer.removeKey
    return { lexer with pending := some ⟨required, lexer.tokens.size, lexer.cursor.place⟩ }
  else .ok lexer

/-! ### Indicators -/

/-- A token that ends all blocks: a directive or a mark between documents. -/
def atTop (lexer : Lexer) : Except Problem Lexer := do
  let lexer ← (lexer.unroll (-1)).removeKey
  return { lexer with keyAllowed := false }

def flowStart (lexer : Lexer) (token : Token) : Except Problem Lexer := do
  let lexer ← lexer.saveKey
  return ({ lexer with
    outer := lexer.pending :: lexer.outer, pending := none, keyAllowed := true }.skip 1).emit token

def flowEnd (lexer : Lexer) (token : Token) : Except Problem Lexer := do
  let lexer ← lexer.removeKey
  let lexer := match lexer.outer with
    | around :: outer => { lexer with pending := around, outer := outer }
    | [] => lexer
  return ({ lexer with keyAllowed := false }.skip 1).emit token

def flowEntry (lexer : Lexer) : Except Problem Lexer := do
  let lexer ← lexer.removeKey
  return ({ lexer with keyAllowed := true }.skip 1).emit .flowEntry

/-- Opens a block here if the indicator that follows may start one. -/
def blockHere (lexer : Lexer) (token : Token) (refusal : String) : Except Problem Lexer :=
  if lexer.inFlow then .ok lexer
  else if !lexer.keyAllowed then lexer.fail refusal
  else .ok (lexer.openBlock lexer.cursor.place.column lexer.tokens.size token)

def blockEntry (lexer : Lexer) : Except Problem Lexer := do
  let lexer ← lexer.blockHere .blockSequence "sequence entries are not allowed here"
  let lexer ← lexer.removeKey
  return ({ lexer with keyAllowed := true }.skip 1).emit .blockEntry

def explicitKey (lexer : Lexer) : Except Problem Lexer := do
  let lexer ← lexer.blockHere .blockMapping "mapping keys are not allowed here"
  let lexer ← lexer.removeKey
  return ({ lexer with keyAllowed := !lexer.inFlow }.skip 1).emit .key

def value (lexer : Lexer) : Except Problem Lexer := do
  match lexer.pending with
  | some start =>
    let lexer := { lexer with tokens := lexer.tokens.insertIdxIfInBounds start.tokens .key }
    let lexer := lexer.openBlock start.place.column start.tokens .blockMapping
    return ({ lexer with pending := none, keyAllowed := false }.skip 1).emit .value
  | none =>
    let lexer ← lexer.blockHere .blockMapping "mapping values are not allowed here"
    return ({ lexer with keyAllowed := !lexer.inFlow }.skip 1).emit .value

/-! ### Directives -/

/-- The end of a directive's line. -/
def directiveEnd (lexer : Lexer) : Except Problem Lexer :=
  let cursor := lexer.cursor.skipWhile isBlank
  let cursor := if cursor.rest.head? == some '#' then cursor.skipWhile (!isBreak ·) else cursor
  if cursor.rest.isEmpty || cursor.rest.head?.any isBreak then .ok { lexer with cursor := cursor.skipBreak }
  else .error (cursor.problem "expected a comment or a line break")

def versionNumber (cursor : Cursor) : Except Problem (Nat × Cursor) :=
  let (digits, next) := cursor.span Char.isDigit
  if digits.isEmpty then .error (cursor.problem "expected a version number")
  else if 9 < digits.length then .error (cursor.problem "found an overlong version number")
  else .ok (digits.foldl (fun n c => n * 10 + (c.toNat - 48)) 0, next)

/-- A tag handle, and what follows it. In a directive it ends with an exclamation mark. -/
def tagHandle (inDirective : Bool) (cursor : Cursor) : Except Problem (String × Cursor) :=
  match cursor.rest with
  | '!' :: _ =>
    let (word, next) := (cursor.skip 1).span isWord
    let handle := String.ofList ('!' :: word)
    if next.rest.head? == some '!' then .ok (handle.push '!', next.skip 1)
    else if inDirective && handle != "!" then .error (next.problem "expected an exclamation mark")
    else .ok (handle, next)
  | _ => .error (cursor.problem "expected an exclamation mark")

/-- The bytes of escapes that start here. -/
def uriBytes : Nat → List Char → List UInt8
  | fuel + 1, '%' :: high :: low :: rest =>
    match Text.hexValue? high, Text.hexValue? low with
    | some h, some l => UInt8.ofNat (16 * h + l) :: uriBytes fuel rest
    | _, _ => []
  | _, _ => []

/-- How many bytes the character that starts with a byte takes. -/
def utf8Length? (byte : UInt8) : Option Nat :=
  if byte &&& 0x80 == 0 then some 1
  else if byte &&& 0xe0 == 0xc0 then some 2
  else if byte &&& 0xf0 == 0xe0 then some 3
  else if byte &&& 0xf8 == 0xf0 then some 4
  else none

/-- Whether a byte is one of a character's later ones. -/
def isContinuation (byte : UInt8) : Bool := byte &&& 0xc0 == 0x80

/-- The bytes that are escaped here, and what follows them. They have the form of a character's bytes,
but need not be those of any. -/
def uriEscape (cursor : Cursor) : Except Problem (List UInt8 × Cursor) :=
  match uriBytes 4 cursor.rest with
  | [] => .error (cursor.problem "expected an escaped byte")
  | first :: rest =>
    match utf8Length? first with
    | none => .error (cursor.problem "found a byte that starts no character")
    | some count =>
      let later := rest.take (count - 1)
      if later.length + 1 = count && later.all isContinuation then
        .ok (first :: later, cursor.skip (3 * count))
      else .error (cursor.problem "found a byte that does not go on with a character")

def isUriChar (verbatim : Bool) (c : Char) : Bool :=
  isWord c || ";/?:@&=+$.%!~*'()".toList.contains c || (verbatim && (c == ',' || c == '[' || c == ']'))

/-- The bytes of a tag after its handle, which come after those already read. -/
def tagUri (verbatim : Bool) : Nat → List UInt8 → Cursor → Except Problem (List UInt8 × Cursor)
  | 0, bytes, cursor => .ok (bytes, cursor)
  | fuel + 1, bytes, cursor =>
    match cursor.rest with
    | c :: _ =>
      if c == '%' then do
        let (escaped, next) ← uriEscape cursor
        tagUri verbatim fuel (bytes ++ escaped) next
      else if isUriChar verbatim c then tagUri verbatim fuel (bytes ++ [UInt8.ofNat c.toNat]) (cursor.skip 1)
      else .ok (bytes, cursor)
    | [] => .ok (bytes, cursor)

/-- A tag ends at its first zero byte, although what follows must be well-formed. -/
def upToZero (bytes : List UInt8) : List UInt8 := bytes.takeWhile (· != 0)

/-- A directive of a known name. -/
def directiveValue (bound : Nat) (name : String) (cursor : Cursor) : Except Problem (Token × Cursor) := do
  let cursor := cursor.skipWhile isBlank
  match name with
  | "YAML" =>
    let (major, next) ← versionNumber cursor
    if next.rest.head? != some '.' then throw (next.problem "expected a digit or a dot")
    let (minor, next) ← versionNumber (next.skip 1)
    return (.version major minor, next)
  | "TAG" =>
    let (handle, next) ← tagHandle true cursor
    if !next.rest.head?.any isBlank then throw (next.problem "expected white space")
    let next := next.skipWhile isBlank
    let (expansion, after) ← tagUri true bound [] next
    if expansion.isEmpty then throw (after.problem "expected a tag prefix")
    if !endsWord after.rest then throw (after.problem "expected white space or a line break")
    return (.tagDirective handle (upToZero expansion), after)
  | _ => throw (cursor.problem "found an unknown directive")

def directive (lexer : Lexer) : Except Problem Lexer := do
  let lexer ← lexer.atTop
  let (name, next) := (lexer.cursor.skip 1).span isWord
  if name.isEmpty then throw (next.problem "expected the name of a directive")
  if !endsWord next.rest then throw (next.problem "found a character that is not part of a name")
  let (token, next) ← directiveValue lexer.bound (String.ofList name) next
  ({ lexer with cursor := next }.emit token).directiveEnd

/-! ### Tokens with text -/

def anchorName (lexer : Lexer) (token : String → Token) : Except Problem Lexer := do
  let lexer ← lexer.saveKey
  let (name, next) := (lexer.cursor.skip 1).span isWord
  let ends := endsWord next.rest || next.rest.head?.any fun c => "?:,]\x7d%@`".toList.contains c
  if name.isEmpty || !ends then
    throw (next.problem "expected a name of letters, digits, dashes and underscores")
  return ({ lexer with cursor := next, keyAllowed := false }).emit (token (String.ofList name))

/-- A tag: written out between angle brackets, with a handle between exclamation marks, or local. An
exclamation mark alone is written out, too. -/
def tagParts (bound : Nat) (cursor : Cursor) : Except Problem (String × List UInt8 × Cursor) := do
  match cursor.rest with
  | '!' :: '<' :: _ =>
    let cursor := cursor.skip 2
    let (uri, next) ← tagUri true bound [] cursor
    if uri.isEmpty then throw (next.problem "expected a tag")
    if next.rest.head? != some '>' then throw (next.problem "expected a closing angle bracket")
    return ("", upToZero uri, next.skip 1)
  | _ =>
    let (handle, next) ← tagHandle false cursor
    if 1 < handle.length && handle.endsWith "!" then
      let (suffix, after) ← tagUri false bound [] next
      if suffix.isEmpty then throw (after.problem "expected a tag")
      return (handle, upToZero suffix, after)
    else
      let (suffix, after) ← tagUri false bound (handle.toUTF8.toList.drop 1) next
      let suffix := upToZero suffix
      return if suffix.isEmpty then ("", "!".toUTF8.toList, after) else ("!", suffix, after)

def tag (lexer : Lexer) : Except Problem Lexer := do
  let lexer ← lexer.saveKey
  let (handle, suffix, next) ← tagParts lexer.bound lexer.cursor
  let ends := endsWord next.rest || (lexer.inFlow && next.rest.head? == some ',')
  if !ends then throw (next.problem "expected white space or a line break")
  return ({ lexer with cursor := next, keyAllowed := false }).emit (.tag handle suffix)

def blockScalar (lexer : Lexer) (style : ScalarStyle) : Except Problem Lexer := do
  let lexer ← lexer.removeKey
  let (text, next) ← blockText (style == .folded) lexer.indent lexer.bound (lexer.cursor.skip 1)
  return ({ lexer with cursor := next, keyAllowed := true }).emit (.scalar style text)

def quotedScalar (lexer : Lexer) (quote : Char) (style : ScalarStyle) : Except Problem Lexer := do
  let lexer ← lexer.saveKey
  let (text, next) ← quotedText quote lexer.bound "" (lexer.cursor.skip 1)
  return ({ lexer with cursor := next, keyAllowed := false }).emit (.scalar style text)

def plainScalar (lexer : Lexer) : Except Problem Lexer := do
  let lexer ← lexer.saveKey
  let (text, next, broken) ←
    plainText lexer.inFlow (lexer.indent + 1) lexer.bound "" {} lexer.cursor
  return ({ lexer with cursor := next, keyAllowed := broken }).emit (.scalar .plain text)

/-! ### The next token -/

/-- Whether a plain scalar may start with these characters. -/
def startsPlain (inFlow : Bool) : List Char → Bool
  | [] => false
  | c :: rest =>
    !(endsWord [c] || "-?:,[]\x7b\x7d#&*!|>'\"%@`".toList.contains c) ||
      (c == '-' && !rest.head?.any isBlank) ||
      (!inFlow && (c == '?' || c == ':') && !endsWord rest)

/-- Reads the token that starts here. -/
def token (lexer : Lexer) : Except Problem Lexer :=
  let atLineStart := lexer.cursor.place.column == 0
  match lexer.cursor.rest with
  | [] => lexer.fail "found the end of the stream"
  | c :: rest =>
    if atLineStart && c == '%' then lexer.directive
    else if lexer.cursor.atDocumentMark then do
      let lexer ← lexer.atTop
      return (lexer.skip 3).emit (if c == '-' then .documentStart else .documentEnd)
    else if c == '[' then lexer.flowStart .flowSequence
    else if c == '{' then lexer.flowStart .flowMapping
    else if c == ']' then lexer.flowEnd .flowSequenceEnd
    else if c == '}' then lexer.flowEnd .flowMappingEnd
    else if c == ',' then lexer.flowEntry
    else if c == '-' && endsWord rest then lexer.blockEntry
    else if c == '?' && (lexer.inFlow || endsWord rest) then lexer.explicitKey
    else if c == ':' && (lexer.inFlow || endsWord rest) then lexer.value
    else if c == '*' then lexer.anchorName .alias
    else if c == '&' then lexer.anchorName .anchor
    else if c == '!' then lexer.tag
    else if c == '|' && !lexer.inFlow then lexer.blockScalar .literal
    else if c == '>' && !lexer.inFlow then lexer.blockScalar .folded
    else if c == '\'' then lexer.quotedScalar '\'' .singleQuoted
    else if c == '"' then lexer.quotedScalar '"' .doubleQuoted
    else if startsPlain lexer.inFlow (c :: rest) then lexer.plainScalar
    else lexer.fail "found a character that cannot start a token"

/-- Reads tokens to the end. Each takes at least one character, so there are no more than characters. -/
def run : Nat → Lexer → Except Problem (List Token)
  | 0, lexer => lexer.fail "found the end of the stream"
  | fuel + 1, lexer => do
    let lexer ← (lexer.toNextToken lexer.bound).dropStaleKeys
    if lexer.cursor.rest.isEmpty then
      let lexer ← (lexer.unroll (-1)).removeKey
      return (lexer.emit .streamEnd).tokens.toList
    else run fuel (← (lexer.unroll lexer.cursor.place.column).token)

end Lexer

/-- The tokens of a text. -/
def Token.scan (text : String) : Except Problem (List Token) :=
  let lexer := Lexer.start text.toList
  if text.toList.all isAllowed then lexer.run lexer.bound
  else .error ⟨"control characters are not allowed", ⟨0, 0, 0⟩⟩

end CrdForge.Yaml
