import CrdForge.Text.Affix
import CrdForge.Text.Alphanumeric

/-! Environment variables, and names of files in which they are used. -/
namespace CrdForge.Host

/-- The values of variables. -/
abbrev Environment := List (String × String)

namespace Environment

/-- The value of a variable: what follows the name and an equals sign where a variable is written as its
name, an equals sign and its value. -/
def value? (environment : Environment) (name : String) : Option String :=
  environment.findSome? fun (given, value) => Text.after? (name ++ "=") (given ++ "=" ++ value)

/-- The value of a variable that is set and not empty. -/
def nonempty? (environment : Environment) (name : String) : Option String :=
  (environment.value? name).filter (· != "")

/-- The user's own directory. -/
def home? (environment : Environment) : Option String := environment.nonempty? "HOME"

end Environment

/-! ### Uses of variables in a text -/

/-- A part of a text in which variables are used. -/
inductive Segment where
  | text (chars : List Char)
  /-- The value of a variable, or of another text if there is none. -/
  | use (name : String) (otherwise : Option String)
  deriving DecidableEq

/-- Characters of the name of a variable. -/
def isNameChar (c : Char) : Bool := Text.isAlphanumeric c || c == '_'

/-- Splits braced text at the first `:-`. -/
def splitDefault : List Char → List Char × Option (List Char)
  | ':' :: '-' :: rest => ([], some rest)
  | c :: rest =>
    let (name, otherwise) := splitDefault rest
    (c :: name, otherwise)
  | [] => ([], none)

/-- The use of a variable between braces. What follows the name and `:-` is used if there is no such
variable. -/
def bracedSegment (chars : List Char) : Segment :=
  match splitDefault chars with
  | (first :: name, some otherwise) => .use (String.ofList (first :: name)) (some (String.ofList otherwise))
  | _ => .use (String.ofList chars) none

/-- Splits a text into its parts, looking at no more dollar signs than the first argument says. -/
def segmentsWithin : Nat → List Char → List Segment
  | 0, chars => [.text chars]
  | count + 1, chars =>
    let before := chars.takeWhile (· != '$')
    .text before ::
      match chars.drop before.length with
      | '$' :: '{' :: rest =>
        let name := rest.takeWhile (· != '}')
        match rest.drop name.length with
        | _ :: rest => bracedSegment name :: segmentsWithin count rest
        | [] => .text ['$', '{'] :: segmentsWithin count rest
      | '$' :: '$' :: rest => .text ['$'] :: segmentsWithin count rest
      | '$' :: c :: rest =>
        if isNameChar c then
          let name := (c :: rest).takeWhile isNameChar
          .use (String.ofList name) none :: segmentsWithin count ((c :: rest).drop name.length)
        else .text ['$'] :: segmentsWithin count (c :: rest)
      | '$' :: [] => [.text ['$']]
      | _ => []

def segments (text : String) : List Segment := segmentsWithin text.length text.toList

/-- The variables that are used in a text. -/
def variablesOf (text : String) : List String :=
  (segments text).filterMap fun
    | .use name _ => some name
    | .text _ => none

/-! ### Expansion -/

/-- A variable that is used and not set. -/
structure Unset where
  name : String
  deriving DecidableEq

def Unset.message (unset : Unset) : String :=
  "error looking key '" ++ unset.name ++ "' up: environment variable not found"

def Segment.expand (environment : Environment) : Segment → Except Unset String
  | .text chars => .ok (String.ofList chars)
  | .use name otherwise =>
    match (environment.value? name).or otherwise with
    | some value => .ok value
    | none => .error ⟨name⟩

/-- The text with the user's own directory in place of a tilde at its start. -/
def expandTilde (environment : Environment) (text : String) : String :=
  match text.toList, environment.home? with
  | '~' :: [], some home => home
  | '~' :: '/' :: rest, some home => home ++ String.ofList ('/' :: rest)
  | _, _ => text

/-- The text with the values of variables in place of their names, and a tilde at its start replaced. A
tilde that a variable brings in stays. -/
def expand (environment : Environment) (text : String) : Except Unset String := do
  let expanded := String.join (← (segments text).mapM (Segment.expand environment))
  if !Text.startsWith "~" text && Text.startsWith "~" expanded then return expanded
  return expandTilde environment expanded

end CrdForge.Host
