import CrdForge.Text.Hexadecimal
import CrdForge.Yaml.Cursor

/-! Reading the text of one scalar, in each of the five styles.

Every loop takes at least one character a turn; the bound that each is given is at least the number of
characters left. -/
namespace CrdForge.Yaml

/-! ### Gaps between the words of a flow scalar -/

/-- White space between two words: blanks before any line break, the first break, and those after. -/
structure Gap where
  blanks : List Char := []
  first : List Char := []
  further : List Char := []
  broken : Bool := false

/-- What a gap stands for: a single line break is a space, more of them are all but the first. -/
def Gap.folded (gap : Gap) : List Char :=
  if gap.broken then
    if gap.first = ['\n'] then (if gap.further.isEmpty then [' '] else gap.further)
    else gap.first ++ gap.further
  else gap.blanks

/-- Reads on through a gap. Where an indentation is given, no tab may stand left of it on a new line. -/
def Gap.read (indent : Option Int) : Nat → Gap → Cursor → Except Problem (Gap × Cursor)
  | 0, gap, cursor => .ok (gap, cursor)
  | fuel + 1, gap, cursor =>
    match cursor.lineBreak? with
    | some (written, next) =>
      let gap := if gap.broken then { gap with further := gap.further ++ written }
        else { gap with blanks := [], first := written, broken := true }
      Gap.read indent fuel gap next
    | none =>
      match cursor.rest with
      | c :: _ =>
        if isBlank c then
          if c == '\t' && gap.broken && indent.any fun limit => (cursor.place.column : Int) < limit then
            .error (cursor.problem "found a tab left of the indentation")
          else Gap.read indent fuel
            (if gap.broken then gap else { gap with blanks := gap.blanks ++ [c] }) (cursor.skip 1)
        else .ok (gap, cursor)
      | [] => .ok (gap, cursor)

/-! ### Plain scalars -/

/-- The characters of a plain scalar up to a blank, a break or an indicator that ends it. Nothing is
returned where a colon may not stand. -/
def plainRun (inFlow : Bool) : List Char → Option (List Char)
  | [] => some []
  | c :: rest =>
    if isBlank c || isBreak c then some []
    else if inFlow && c == ':' && (rest.head?.any fun next => isFlowIndicator next || next == '?') then none
    else if c == ':' && endsWord rest then some []
    else if inFlow && isFlowIndicator c then some []
    else (plainRun inFlow rest).map (c :: ·)

/-- The text of a plain scalar, what follows it, and whether a line break was read after its last word. -/
def plainText (inFlow : Bool) (indent : Int) :
    Nat → String → Gap → Cursor → Except Problem (String × Cursor × Bool)
  | 0, text, gap, cursor => .ok (text, cursor, gap.broken)
  | fuel + 1, text, gap, cursor =>
    if cursor.atDocumentMark || cursor.rest.head? == some '#' then .ok (text, cursor, gap.broken)
    else
      match plainRun inFlow cursor.rest with
      | none => .error (cursor.problem "found a colon that may not stand in a plain scalar")
      | some run =>
        let (text, gap) :=
          if run.isEmpty then (text, gap)
          else (text ++ String.ofList gap.folded ++ String.ofList run, ({} : Gap))
        let cursor := cursor.skip run.length
        if !cursor.rest.isEmpty && endsWord cursor.rest then do
          let (gap, cursor) ← Gap.read (some indent) (fuel + 1) gap cursor
          if !inFlow && (cursor.place.column : Int) < indent then .ok (text, cursor, gap.broken)
          else plainText inFlow indent fuel text gap cursor
        else .ok (text, cursor, gap.broken)

/-! ### Quoted scalars -/

/-- The character that a backslash and a letter stand for. -/
def escapeLetter? : Char → Option Char
  | '0' => some '\x00'
  | 'a' => some '\x07'
  | 'b' => some '\x08'
  | 't' => some '\t'
  | '\t' => some '\t'
  | 'n' => some '\n'
  | 'v' => some '\x0b'
  | 'f' => some '\x0c'
  | 'r' => some '\r'
  | 'e' => some '\x1b'
  | ' ' => some ' '
  | '"' => some '"'
  | '/' => some '/'
  | '\\' => some '\\'
  | 'N' => some '\u0085'
  | '_' => some '\u00a0'
  | 'L' => some '\u2028'
  | 'P' => some '\u2029'
  | _ => none

/-- How many hexadecimal digits follow a backslash and this letter. -/
def escapeLength? : Char → Option Nat
  | 'x' => some 2
  | 'u' => some 4
  | 'U' => some 8
  | _ => none

/-- The character with the hexadecimal digits as its code point. -/
def charOfHex? (digits : List Char) : Option Char :=
  (digits.foldl (fun code digit => do return (← code) * 16 + (← Text.hexValue? digit)) (some 0)).bind
    fun code => if h : code.isValidChar then some (Char.ofNatAux code h) else none

/-- What a backslash in a double-quoted scalar stands for, and how long it is written. -/
def escape? : List Char → Option (Char × Nat)
  | [] => none
  | letter :: rest =>
    match escapeLetter? letter, escapeLength? letter with
    | some c, _ => some (c, 2)
    | none, some length =>
      if rest.length < length then none
      else (charOfHex? (rest.take length)).map fun c => (c, length + 2)
    | none, none => none

/-- The text of a quoted scalar from inside its quotes, and what follows the closing one. -/
def quotedText (quote : Char) : Nat → String → Cursor → Except Problem (String × Cursor)
  | 0, _, cursor => .error (cursor.problem "found an unexpected end of stream")
  | fuel + 1, text, cursor =>
    if cursor.atDocumentMark then .error (cursor.problem "found an unexpected document mark")
    else match cursor.rest with
    | [] => .error (cursor.problem "found an unexpected end of stream")
    | c :: rest =>
      if isBlank c || isBreak c then do
        let (gap, cursor) ← Gap.read none (fuel + 1) {} cursor
        quotedText quote fuel (text ++ String.ofList gap.folded) cursor
      else if c == quote then
        if quote == '\'' && rest.head? == some '\'' then
          quotedText quote fuel (text.push '\'') (cursor.skip 2)
        else .ok (text, cursor.skip 1)
      else if quote == '"' && c == '\\' then
        if (rest.head?.any isBreak) then do
          let (gap, cursor) ← Gap.read none (fuel + 1) { broken := true } (cursor.skip 1).skipBreak
          quotedText quote fuel (text ++ String.ofList gap.folded) cursor
        else match escape? rest with
          | some (written, length) => quotedText quote fuel (text.push written) (cursor.skip length)
          | none => .error (cursor.problem "found an unknown escape")
      else quotedText quote fuel (text.push c) (cursor.skip 1)

/-! ### Block scalars -/

/-- What becomes of the line breaks at the end of a block scalar. -/
inductive Chomping where
  | strip
  | clip
  | keep

/-- The header of a block scalar after its indicator: chomping and indentation in either order. -/
def blockHeader (cursor : Cursor) : Except Problem (Chomping × Option Nat × Cursor) :=
  let chomping? : List Char → Option Chomping
    | '+' :: _ => some .keep
    | '-' :: _ => some .strip
    | _ => none
  let increment? (cursor : Cursor) : Except Problem (Option Nat) :=
    match cursor.rest with
    | c :: _ =>
      if c == '0' then .error (cursor.problem "found an indentation of zero")
      else if c.isDigit then .ok (some (c.toNat - 48))
      else .ok none
    | [] => .ok none
  match chomping? cursor.rest with
  | some chomping => do
    let cursor := cursor.skip 1
    let increment ← increment? cursor
    .ok (chomping, increment, if increment.isSome then cursor.skip 1 else cursor)
  | none => do
    let increment ← increment? cursor
    if increment.isNone then .ok (.clip, none, cursor)
    else
      let cursor := cursor.skip 1
      match chomping? cursor.rest with
      | some chomping => .ok (chomping, increment, cursor.skip 1)
      | none => .ok (.clip, increment, cursor)

/-- The empty lines before a line of a block scalar, the widest indentation among them and that line,
and the place after its indentation. While no indentation is known, spaces of any number are read. -/
def blockBreaks (indent : Option Nat) : Nat → Nat → List Char → Cursor →
    Except Problem (List Char × Nat × Cursor)
  | 0, widest, breaks, cursor => .ok (breaks, widest, cursor)
  | fuel + 1, widest, breaks, cursor =>
    let spaces := (cursor.rest.takeWhile (· == ' ')).length
    let room := match indent with
      | none => spaces
      | some limit => min spaces (limit - cursor.place.column)
    let cursor := cursor.skip room
    let widest := max widest cursor.place.column
    let short := indent.all fun limit => cursor.place.column < limit
    if short && cursor.rest.head? == some '\t' then
      .error (cursor.problem "found a tab where indentation is expected")
    else match cursor.lineBreak? with
      | some (written, next) => blockBreaks indent fuel widest (breaks ++ written) next
      | none => .ok (breaks, widest, cursor)

/-- The lines of a block scalar. The line break after the line before and the breaks of empty lines are
held back until another line comes; a folded scalar turns a single one into a space, unless one of the
lines starts with a blank. -/
def blockLines (folds : Bool) (indent : Nat) : Nat → String → List Char → List Char → Bool → Cursor →
    Except Problem (String × List Char × List Char × Cursor)
  | 0, text, held, breaks, _, cursor => .ok (text, held, breaks, cursor)
  | fuel + 1, text, held, breaks, blankBefore, cursor =>
    if cursor.place.column != indent || cursor.rest.isEmpty then .ok (text, held, breaks, cursor)
    else do
      let blankHere := cursor.rest.head?.any isBlank
      let joint :=
        if folds && held == ['\n'] && !blankBefore && !blankHere then
          if breaks.isEmpty then [' '] else breaks
        else held ++ breaks
      let (line, cursor) := cursor.span (!isBreak ·)
      let (held, cursor) := cursor.lineBreak?.getD ([], cursor)
      let (breaks, _, cursor) ← blockBreaks (some indent) (fuel + 1) 0 [] cursor
      blockLines folds indent fuel (text ++ String.ofList joint ++ String.ofList line) held breaks blankHere
        cursor

/-- The text of a block scalar after its indicator, inside a block of the given indentation. -/
def blockText (folds : Bool) (outer : Int) (fuel : Nat) (cursor : Cursor) :
    Except Problem (String × Cursor) := do
  let (chomping, increment, cursor) ← blockHeader cursor
  let cursor := cursor.skipWhile isBlank
  let cursor := if cursor.rest.head? == some '#' then cursor.skipWhile (!isBreak ·) else cursor
  if !(cursor.rest.isEmpty || cursor.rest.head?.any isBreak) then
    throw (cursor.problem "expected a comment or a line break")
  let cursor := cursor.skipBreak
  let known := increment.map fun n => (max outer 0).toNat + n
  let (breaks, widest, cursor) ← blockBreaks known fuel 0 [] cursor
  let indent := known.getD (max (max widest (outer + 1).toNat) 1)
  let (text, held, breaks, cursor) ←
    blockLines folds indent fuel "" [] breaks false cursor
  let tail := match chomping with
    | .strip => []
    | .clip => held
    | .keep => held ++ breaks
  return (text ++ String.ofList tail, cursor)

end CrdForge.Yaml
