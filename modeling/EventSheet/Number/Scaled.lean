namespace EventSheet.Number

/-! Doubles from decimal literals. The digits are gathered in a 64-bit
significand; digits that no longer fit count as powers of ten in front of the
point and are dropped behind it. The double is the significand, rounded, times
or divided by one power of ten, so the last bit is not always the nearest one. -/

/-- A decimal literal as written: digits before the point, digits behind it, and
a signed power of ten. Zeros and absent parts are empty lists. -/
structure Literal where
  negative : Bool
  whole : List Nat
  fraction : List Nat := []
  negativePower : Bool := false
  power : List Nat := []
  /-- No point and no power of ten were written. -/
  integral : Bool := true
deriving DecidableEq

/-- A significand with the power of ten it is scaled by. -/
structure Scaled where
  significand : Nat := 0
  exponent : Int := 0
deriving DecidableEq

namespace Scaled

def limit : Nat := UInt64.size

/-- Take in the digits that fit; the rest are handed back. -/
def absorb (significand : Nat) : List Nat → Nat × List Nat
  | [] => (significand, [])
  | digit :: rest =>
      if significand * 10 + digit < limit then absorb (significand * 10 + digit) rest
      else (significand, digit :: rest)

/-- The digits of a literal, before its written power of ten. -/
def ofDigits (whole fraction : List Nat) : Scaled :=
  let (front, dropped) := absorb 0 whole
  let (significand, ignored) := absorb front fraction
  ⟨significand, (dropped.length : Int) - ((fraction.length - ignored.length : Nat) : Int)⟩

end Scaled

def natOfDigits (digits : List Nat) : Nat :=
  digits.foldl (fun value digit => value * 10 + digit) 0

/-- `10 ^ power` as a double. -/
def powerOfTen (power : Nat) : Float := Float.ofScientific 1 false power

def greatestPower : Nat := 308

/-- Scale by a power of ten. A power beyond the greatest double is out of range
unless it scales zero; a small one is applied in steps until nothing is left. -/
def scale : Nat → Float → Int → Option Float
  | 0, value, _ => some value
  | steps + 1, value, exponent =>
      if exponent.natAbs ≤ greatestPower then
        if 0 ≤ exponent then
          let scaled := value * powerOfTen exponent.natAbs
          if scaled.isInf then none else some scaled
        else some (value / powerOfTen exponent.natAbs)
      else if value == 0 then some value
      else if 0 ≤ exponent then none
      else scale steps (value / powerOfTen greatestPower) (exponent + greatestPower)

/-- The greatest power of ten a literal may name; beyond it only zero is in
range, and a negative power always gives zero. -/
def greatestWrittenPower : Nat := 0x7FFFFFFF

namespace Literal

/-- The double of a literal, without its sign. -/
def magnitude? (literal : Literal) : Option Float :=
  let scaled := Scaled.ofDigits literal.whole literal.fraction
  let power := natOfDigits literal.power
  if greatestWrittenPower < power then
    if scaled.significand ≠ 0 && !literal.negativePower then none else some 0
  else
    let exponent := if literal.negativePower then scaled.exponent - power
      else scaled.exponent + power
    scale (exponent.natAbs + 1) scaled.significand.toUInt64.toFloat exponent

/-- The double of a literal, or nothing when it is out of range. -/
def double? (literal : Literal) : Option Float :=
  literal.magnitude?.map fun value => if literal.negative then -value else value

end Literal

end EventSheet.Number
