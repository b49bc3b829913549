import CrdForge.Decimal.Shortest

/-! How decimals are laid out as text.

Numbers from a hundred-thousandth up to ten quadrillion are written positionally and always show
that they are not integers; all others have an exponent. -/
namespace CrdForge.Decimal

/-- What one text format decides for itself. -/
structure Layout where
  /-- What stands before an exponent that is not negative. -/
  plus : String

/-- The decimal with digits `d₁d₂…` and its point after `point` of them. -/
def Layout.decimal (layout : Layout) (d : Digits) : String :=
  let digits := toString d.digits
  let point : Int := digits.length + d.exponent
  let zeros (n : Nat) : String := String.ofList (List.replicate n '0')
  if 0 ≤ d.exponent && point ≤ 16 then digits ++ zeros d.exponent.toNat ++ ".0"
  else if 0 < point && point ≤ 16 then
    String.ofList (digits.toList.take point.toNat) ++ "." ++ String.ofList (digits.toList.drop point.toNat)
  else if -5 < point && point ≤ 0 then "0." ++ zeros (-point).toNat ++ digits
  else
    let fraction := if digits.length = 1 then "" else "." ++ String.ofList (digits.toList.drop 1)
    let exponent := point - 1
    String.ofList (digits.toList.take 1) ++ fraction ++ "e" ++
      (if exponent < 0 then "-" else layout.plus) ++ toString exponent.natAbs

/-- The text of a finite number: its sign, kept on zero, and its fewest digits. -/
def Layout.float (layout : Layout) (x : Float) : String :=
  let bits := x.toBits
  let sign := if Nat.pow 2 63 ≤ bits.toNat then "-" else ""
  let magnitude := Binary.ofBits bits
  sign ++ if magnitude.mantissa = 0 then "0.0" else layout.decimal magnitude.shortest

end CrdForge.Decimal
