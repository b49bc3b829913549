import CrdForge.Text.CaseTable

/-! Changing letter case beyond ASCII.

Lower-casing looks at single characters, except for the capital sigma, whose form depends on
whether it ends a word. Names made of words are joined in camel case. -/
namespace CrdForge.Text

/-- Where the runs send a code point. -/
def CaseRun.image? (runs : Array CaseRun) (point : Nat) : Option Nat :=
  (runs.find? fun run => run.first ≤ point && point ≤ run.last && (point - run.first) % run.step == 0).map
    fun run => ((point : Int) + run.shift).toNat

/-- The lower-case form of one character. The dotted capital I leaves its dot behind. -/
def lowerChar (c : Char) : List Char :=
  if c.toNat < 0x80 then [c.toLower]
  else if c.toNat = 0x130 then ['i', Char.ofNat 0x307]
  else match CaseRun.image? lowerRuns c.toNat with
    | some point => [Char.ofNat point]
    | none => [c]

/-- The upper-case form of one character. -/
def upperChar (c : Char) : List Char :=
  if c.toNat < 0x80 then [c.toUpper]
  else match upperExpansions.lookup c.toNat with
    | some points => points.map Char.ofNat
    | none => match CaseRun.image? upperRuns c.toNat with
      | some point => [Char.ofNat point]
      | none => [c]

/-! ### Whole texts -/

/-- Whether the nearest character that is not passed over is cased. -/
def meetsCased (chars : List Char) : Bool :=
  match chars.dropWhile caseIgnorable.contains with
  | [] => false
  | c :: _ => cased.contains c

/-- Lower-cases the rest of a text, given what stands before it, nearest first. A capital sigma
after a cased character and before none is a final one. -/
def lowerAfter (before : List Char) : List Char → List Char
  | [] => []
  | c :: rest =>
    (if c.toNat = 0x3a3 then
      [if meetsCased before && !meetsCased rest then Char.ofNat 0x3c2 else Char.ofNat 0x3c3]
    else lowerChar c) ++ lowerAfter (c :: before) rest

/-- The text in lower case. -/
def lower (text : String) : String := String.ofList (lowerAfter [] text.toList)

/-! ### Camel case -/

/-- Characters that separate words in a name. -/
def isSeparator (c : Char) : Bool := c == ' ' || c == '-' || c == '_'

/-- Camel case of the rest of a name, given the character before it and whether the next one is raised.
A separator is left out and raises the next character, which is even kept if it is a separator too; any other
character is lowered unless a lower-case one stands before it. -/
def camelAfter (before : Option Char) (raised : Bool) : List Char → List Char
  | [] => []
  | c :: rest =>
    if raised then upperChar c ++ camelAfter (some c) false rest
    else if isSeparator c then camelAfter (some c) true rest
    else if before.any lowercase.contains then c :: camelAfter (some c) false rest
    else lowerChar c ++ camelAfter (some c) false rest

/-- The name in camel case. -/
def camelCase (name : String) : String := String.ofList (camelAfter none false name.toList)

end CrdForge.Text
