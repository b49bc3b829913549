/-! The fewest decimal digits that identify a binary floating-point number.

A finite positive number stands for an interval of reals, all those that round to it. On the grid of
multiples of a power of ten at most two points can be nearest to the number from either side; the
coarsest grid with such a point inside the interval gives the digits. All arithmetic is exact. -/
namespace CrdForge.Decimal

/-- A finite positive number, `mantissa * 2 ^ exponent`. -/
structure Binary where
  mantissa : Nat
  exponent : Int
  /-- The gap to the next lower number is half the gap to the next higher one. -/
  atPowerOfTwo : Bool

/-- A decimal, `digits * 10 ^ exponent`. -/
structure Digits where
  digits : Nat
  exponent : Int

/-- The magnitude of the finite number with the given bits. -/
def Binary.ofBits (bits : UInt64) : Binary :=
  let fraction : Nat := bits.toNat % Nat.pow 2 52
  let biased : Nat := bits.toNat / Nat.pow 2 52 % Nat.pow 2 11
  if biased = 0 then ⟨fraction, -1074, false⟩
  else ⟨Nat.pow 2 52 + fraction, (biased : Int) - 1075, fraction == 0 && 1 < biased⟩

/-! ### Grids -/

/-- Factors that make multiples of a power of ten and quarters of the last binary place comparable:
`d * 10 ^ place` lies below `x` quarters exactly when `d * decimal < x * quarter`. -/
structure Grid where
  decimal : Nat
  quarter : Nat

/-- The grid of multiples of `10 ^ place` beside a number. -/
def Binary.grid (number : Binary) (place : Int) : Grid where
  decimal := Nat.pow 10 place.toNat * Nat.pow 2 (2 - number.exponent).toNat
  quarter := Nat.pow 10 (-place).toNat * Nat.pow 2 (number.exponent - 2).toNat

/-- Whether a grid point rounds to the number. The ends of the interval count for even mantissas. -/
def Binary.holds (number : Binary) (grid : Grid) (point : Nat) : Bool :=
  let low := if number.atPowerOfTwo then 4 * number.mantissa - 1 else 4 * number.mantissa - 2
  let high := 4 * number.mantissa + 2
  let position := point * grid.decimal
  if number.mantissa % 2 = 0 then low * grid.quarter ≤ position && position ≤ high * grid.quarter
  else low * grid.quarter < position && position < high * grid.quarter

/-- The grid point nearest to the number among those that round to it; of two equally near ones, the
even one. -/
def Binary.nearest? (number : Binary) (grid : Grid) : Option Nat :=
  let exact := 4 * number.mantissa * grid.quarter
  let below := exact / grid.decimal
  let above := below + 1
  match number.holds grid below, number.holds grid above with
  | false, false => none
  | true, false => some below
  | false, true => some above
  | true, true =>
    let down := exact - below * grid.decimal
    let up := above * grid.decimal - exact
    if down < up then some below
    else if up < down then some above
    else some (if below % 2 = 0 then below else above)

/-- The least power of ten above the number. -/
def Binary.scale (number : Binary) : Int :=
  let estimate := ((number.mantissa.log2 + number.exponent) * 30103).fdiv 100000
  let exceeds (place : Int) : Bool :=
    let grid := number.grid place
    4 * number.mantissa * grid.quarter < grid.decimal
  if exceeds estimate then estimate
  else if exceeds (estimate + 1) then estimate + 1
  else estimate + 2

/-! ### Digits -/

/-- Moves trailing zeros into the exponent, as many as the first argument allows. -/
def Digits.strip : Nat → Digits → Digits
  | 0, d => d
  | steps + 1, d =>
    if d.digits % 10 = 0 && d.digits != 0 then strip steps ⟨d.digits / 10, d.exponent + 1⟩ else d

/-- The number itself, written out. -/
def Binary.exact (number : Binary) : Digits :=
  if 0 ≤ number.exponent then ⟨number.mantissa * Nat.pow 2 number.exponent.toNat, 0⟩
  else ⟨number.mantissa * Nat.pow 5 (-number.exponent).toNat, number.exponent⟩

/-- The fewest digits that round to the number, found on the grids of one to seventeen digits. -/
def Binary.shortest (number : Binary) : Digits :=
  let scale := number.scale
  let found := (List.range 17).findSome? fun (i : Nat) =>
    let place : Int := scale - 1 - i
    (number.nearest? (number.grid place)).map fun digits => (⟨digits, place⟩ : Digits)
  Digits.strip 20 (found.getD number.exact)

end CrdForge.Decimal
