/-! Reading a decimal: digits with an optional point among them and an optional exponent. -/
namespace CrdForge.Decimal

/-- The number that a list of decimal digits writes. -/
def natOfDigits (digits : List Char) : Nat :=
  digits.foldl (fun n c => n * 10 + (c.toNat - 48)) 0

/-- The float nearest to `mantissa * 10 ^ exponent`. A power far beyond the range of floats is decided
by the count of digits, so that it need not be written out. -/
def floatOf (mantissa : Nat) (exponent : Int) : Float :=
  let magnitude : Int := (toString mantissa).length + exponent
  if mantissa = 0 then 0.0
  else if 400 < magnitude then 1.0 / 0.0
  else if magnitude < -400 then 0.0
  else Float.ofScientific mantissa (exponent < 0) exponent.natAbs

/-- An exponent with an optional sign. -/
def readExponent? (chars : List Char) : Option Int :=
  let (negative, digits) := match chars with
    | '-' :: rest => (true, rest)
    | '+' :: rest => (false, rest)
    | rest => (false, rest)
  if digits.isEmpty || !digits.all Char.isDigit then none
  else some (if negative then -(natOfDigits digits : Int) else natOfDigits digits)

/-- An unsigned decimal. There must be a digit before or after the point. -/
def readUnsigned? (chars : List Char) : Option Float :=
  let whole := chars.takeWhile Char.isDigit
  let (fraction, rest) := match chars.dropWhile Char.isDigit with
    | '.' :: after => (after.takeWhile Char.isDigit, after.dropWhile Char.isDigit)
    | rest => ([], rest)
  let mantissa := natOfDigits (whole ++ fraction)
  if whole.isEmpty && fraction.isEmpty then none
  else match rest with
    | [] => some (floatOf mantissa (-fraction.length))
    | mark :: exponent =>
      if mark = 'e' || mark = 'E' then
        (readExponent? exponent).map fun power => floatOf mantissa (power - fraction.length)
      else none

/-- A decimal with an optional minus sign. -/
def read? (text : List Char) : Option Float :=
  match text with
  | '-' :: rest => (readUnsigned? rest).map fun x => -x
  | rest => readUnsigned? rest

end CrdForge.Decimal
