/-!
# A decimal significand and exponent as a float

`Decimal.scaled? s e` is the binary64 value of `s · 10 ^ e` as a reader with a table of the powers
of ten up to `10 ^ 308` computes it: `s` is rounded to a float first and then multiplied or divided
by the power.  Each step rounds, so the last digit may differ from that of the exact product.
Below `10 ^ -308` the division is done in steps of `10 ^ 308`.  There is no value if the product is
too large for a float.
-/

namespace SchemaEnums.Decimal

/-- The greatest power of ten that is a finite float. -/
def maxPower : Nat := 308

/-- A power of ten, rounded to the nearest float. -/
def tenPower (exponent : Nat) : Float :=
  .ofScientific 1 false exponent

/-- `f · 10 ^ e`, in steps of at most `10 ^ 308`. -/
def shift? (f : Float) (e : Int) : Option Float :=
  if e.natAbs ≤ maxPower then
    if 0 ≤ e then
      let product := f * tenPower e.natAbs
      if product.isInf then none else some product
    else some (f / tenPower e.natAbs)
  else if f == 0 then some f
  else if 0 ≤ e then none
  else shift? (f / tenPower maxPower) (e + maxPower)
termination_by e.natAbs
decreasing_by simp only [maxPower] at *; omega

/-- `significand · 10 ^ exponent`. -/
def scaled? (significand : UInt64) (exponent : Int) : Option Float :=
  shift? significand.toFloat exponent

end SchemaEnums.Decimal
