import CrdForge.Decimal.Reading
import CrdForge.Json
import CrdForge.Text.Hexadecimal

/-! What an unquoted scalar means.

The empty text and the words for null are null, the words for true and false are booleans, and integers
and decimals are numbers; a text of digits that starts with a needless zero is none of these. Everything
else is a text. -/
namespace CrdForge.Yaml

inductive Scalar where
  | null
  | bool (value : Bool)
  | number (value : Number)
  /-- An integer that has no place among 64-bit numbers. -/
  | hugeInteger
  | text

namespace Scalar

def isNull (text : String) : Bool := ["", "null", "Null", "NULL", "~"].contains text

def bool? (text : String) : Option Bool :=
  if ["true", "True", "TRUE"].contains text then some true
  else if ["false", "False", "FALSE"].contains text then some false
  else none

/-! ### Integers -/

/-- Digits with a needless zero in front, after an optional sign. -/
def hasNeedlessZero (chars : List Char) : Bool :=
  match chars with
  | '-' :: '0' :: d :: rest | '+' :: '0' :: d :: rest | '0' :: d :: rest => (d :: rest).all Char.isDigit
  | _ => false

/-- Digits of a base of at most sixteen. There must be some. -/
def digits? (base : Nat) (chars : List Char) : Option Nat :=
  if chars.isEmpty then none
  else chars.foldl (fun n c => do
    let n ← n
    let d ← Text.hexValue? c
    if d < base then some (n * base + d) else none) (some 0)

/-- A number without a sign: in base sixteen, eight or two after `0x`, `0o` or `0b`, otherwise decimal. -/
def unsigned? (chars : List Char) : Option Nat :=
  let based := match chars with
    | '0' :: 'x' :: rest => digits? 16 rest
    | '0' :: 'o' :: rest => digits? 8 rest
    | '0' :: 'b' :: rest => digits? 2 rest
    | _ => none
  match based with
  | some n => some n
  | none => if chars.all Char.isDigit then digits? 10 chars else none

/-- An integer of at most 128 bits. -/
def integer? (chars : List Char) : Option Int :=
  if hasNeedlessZero chars then none
  else match chars with
    | '-' :: rest => (unsigned? rest).bind fun n => if n ≤ Nat.pow 2 127 then some (-(n : Int)) else none
    | '+' :: rest => (unsigned? rest).bind fun n => if n < Nat.pow 2 128 then some n else none
    | rest => (unsigned? rest).bind fun n => if n < Nat.pow 2 128 then some n else none

/-! ### Decimals -/

/-- The words for infinity and for what is not a number, and finite decimals. -/
def float? (chars : List Char) : Option Float :=
  let infinity : Float := 1.0 / 0.0
  let word? (chars : List Char) : Option Float :=
    if [".inf", ".Inf", ".INF"].contains (String.ofList chars) then some infinity else none
  let finite? (chars : List Char) : Option Float :=
    (Decimal.read? chars).bind fun x => if x.isFinite then some x else none
  match chars with
  | '+' :: '-' :: _ => none
  | '+' :: rest => (word? rest).orElse fun _ => finite? rest
  | '-' :: rest => ((word? rest).map fun x => -x).orElse fun _ => finite? chars
  | _ =>
    if [".nan", ".NaN", ".NAN"].contains (String.ofList chars) then some (0.0 / 0.0)
    else (word? chars).orElse fun _ => finite? chars

/-! ### All together -/

/-- An integer as a number, if it fits 64 bits. -/
def ofInteger (n : Int) : Scalar :=
  if -0x8000000000000000 ≤ n && n < 0x10000000000000000 then .number (.int n) else .hugeInteger

/-- What an unquoted text means. -/
def ofPlain (text : String) : Scalar :=
  let chars := text.toList
  if isNull text then .null
  else match bool? text with
  | some value => .bool value
  | none => match integer? chars with
    | some n => ofInteger n
    | none =>
      if hasNeedlessZero chars then .text
      else match float? chars with
        | some x => .number (.float x)
        | none => .text

end Scalar

end CrdForge.Yaml
