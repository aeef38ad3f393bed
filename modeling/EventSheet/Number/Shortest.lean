namespace EventSheet.Number

/-! The shortest decimal that reads back as a given double. A finite double is
`mantissa * 2 ^ exponent`; the reals that round to it form an interval around
it. The decimal chosen lies in that interval, has the fewest digits of those
that do, and is nearest to the double among those; of two equally near, the even
one. Everything is exact arithmetic on natural numbers. -/

/-- `digits * 10 ^ exponent`. -/
structure Decimal where
  digits : Nat
  exponent : Int
deriving DecidableEq

/-- `mantissa * 2 ^ exponent`, with the distance to the next smaller double
halved when `narrowBelow`. -/
structure Dyadic where
  mantissa : Nat
  exponent : Int
  narrowBelow : Bool

/-- The magnitude of a finite double, read off its bits. -/
def Dyadic.ofBits (bits : UInt64) : Dyadic :=
  let fraction := (bits &&& 0xFFFFFFFFFFFFF).toNat
  let biased := ((bits >>> 52) &&& 0x7FF).toNat
  if biased = 0 then ⟨fraction, -1074, false⟩
  else ⟨0x10000000000000 + fraction, (biased : Int) - 1075, fraction = 0 && biased ≠ 1⟩

namespace Dyadic

/-! The value and the ends of its interval in quarters of the last binary
place. -/

def quarters (value : Dyadic) : Nat := 4 * value.mantissa
def lowerQuarters (value : Dyadic) : Nat :=
  4 * value.mantissa - (if value.narrowBelow then 1 else 2)
def upperQuarters (value : Dyadic) : Nat := 4 * value.mantissa + 2

/-- Weights that compare `count * 10 ^ grid` with quarters of a dyadic:
the first weighs the count, the second the quarters. -/
def weights (value : Dyadic) (grid : Int) : Nat × Nat :=
  let shift := value.exponent - 2
  (Nat.pow 10 grid.toNat * Nat.pow 2 (-shift).toNat,
    Nat.pow 10 (-grid).toNat * Nat.pow 2 shift.toNat)

/-- `count * 10 ^ grid` rounds to the value; the ends do when the mantissa is
even. -/
def contains (value : Dyadic) (grid : Int) (count : Nat) : Bool :=
  let (left, right) := value.weights grid
  let place := count * left
  let low := value.lowerQuarters * right
  let high := value.upperQuarters * right
  if value.mantissa % 2 = 0 then low ≤ place && place ≤ high
  else low < place && place < high

/-- The best point of the grid `10 ^ grid` in the interval, if there is one. -/
def onGrid? (value : Dyadic) (grid : Int) : Option Decimal :=
  let (left, right) := value.weights grid
  let exact := value.quarters * right
  let below := exact / left
  let above := below + 1
  let belowError := exact - below * left
  let aboveError := above * left - exact
  match value.contains grid below, value.contains grid above with
  | true, true =>
      if belowError < aboveError || (belowError = aboveError && below % 2 = 0) then
        some ⟨below, grid⟩
      else some ⟨above, grid⟩
  | true, false => some ⟨below, grid⟩
  | false, true => some ⟨above, grid⟩
  | false, false => none

/-- The number of decimal places in front of the point: the least `places` with
`value < 10 ^ places`. -/
def places (value : Dyadic) : Int :=
  let whole := value.mantissa * Nat.pow 2 value.exponent.toNat / Nat.pow 2 (-value.exponent).toNat
  if 0 < whole then (Nat.toDigits 10 whole).length
  else
    let reaches (zeros : Nat) : Bool :=
      Nat.pow 2 (-value.exponent).toNat ≤ value.mantissa * Nat.pow 10 (zeros + 1)
    match (List.range 400).find? reaches with
    | some zeros => -(zeros : Int)
    | none => 0

/-- Try the power of ten above the value, then one digit, two, and so on; seventeen
always suffice. -/
def shortest (value : Dyadic) : Decimal :=
  let grids := (List.range 18).map fun (index : Nat) => value.places - (index : Int)
  (grids.findSome? value.onGrid?).getD ⟨value.mantissa, 0⟩

end Dyadic

end EventSheet.Number
