/-!
# The shortest decimal that reads back

A positive finite float is `m · 2 ^ q`.  The reals that round to it form an interval around it,
with its ends if `m` is even.  `Decimal.shortest` looks for a decimal in that interval with one
digit, then with two, and so on: the value's two neighbours on the grid of `n`-digit decimals are
the only candidates, the nearer one wins, and of two equally near ones the one with the even last
digit.

Everything is counted in units of `10 ^ -1076`.  Since `q ≥ -1074`, the value, the ends of its
interval and the grid points are natural numbers then, and nothing is rounded.
-/

namespace SchemaEnums.Decimal

/-- The value `digits · 10 ^ exponent`. -/
structure Scientific where
  digits : Nat
  exponent : Int
deriving DecidableEq, Repr

/-- A finite float as `± mantissa · 2 ^ exponent`, and whether the float below its absolute value is
only half as far away as the one above. -/
structure Binary where
  negative : Bool
  mantissa : Nat
  exponent : Int
  narrowBelow : Bool

/-- The mantissa of a normal float has a bit in front of its 52 stored ones. -/
def hiddenBit : Nat := 1 <<< 52

/-- The parts of a float: a sign bit, eleven bits of exponent, 52 bits of mantissa. -/
def Binary.ofFloat (x : Float) : Binary :=
  let bits : Nat := x.toBits.toNat
  let fraction : Nat := bits % hiddenBit
  let biased : Nat := bits / hiddenBit % 2048
  let negative : Bool := bits / hiddenBit / 2048 = 1
  if biased = 0 then ⟨negative, fraction, -1074, false⟩
  else
    ⟨negative, hiddenBit + fraction, (biased : Int) - 1075, fraction = 0 && 1 < biased⟩

/-- The unit that everything is counted in is this power of one tenth. -/
def unitExponent : Nat := 1076

/-- `m · 2 ^ q` counted in units, for `q ≥ -1076`. -/
def inUnits (m : Nat) (q : Int) : Nat :=
  m * Nat.pow 2 (q + unitExponent).toNat * Nat.pow 5 unitExponent

/-- The reals that round to a float, in units: the ends belong to it if `closed`. -/
structure Interval where
  low : Nat
  value : Nat
  high : Nat
  closed : Bool

/-- The reals that round to a float. -/
def Interval.ofBinary (x : Binary) : Interval where
  value := inUnits x.mantissa x.exponent
  high := inUnits (2 * x.mantissa + 1) (x.exponent - 1)
  low :=
    if x.narrowBelow then inUnits (4 * x.mantissa - 1) (x.exponent - 2)
    else inUnits (2 * x.mantissa - 1) (x.exponent - 1)
  closed := x.mantissa % 2 = 0

/-- Whether a number of units lies in the interval. -/
def Interval.contains (interval : Interval) (n : Nat) : Bool :=
  if interval.closed then interval.low ≤ n && n ≤ interval.high
  else interval.low < n && n < interval.high

/-- The multiple of `step` in the interval that is nearest to the value, counted in steps. -/
def Interval.nearest? (interval : Interval) (step : Nat) : Option Nat :=
  let below := interval.value / step
  let above := below + 1
  let low := interval.contains (below * step)
  let high := interval.contains (above * step)
  if low && high then
    let down := interval.value - below * step
    let up := above * step - interval.value
    if down < up || down = up && below % 2 = 0 then some below else some above
  else if low then some below
  else if high then some above
  else none

/-- How many decimal digits a number has. -/
def digitCount (n : Nat) : Nat :=
  (Nat.toDigits 10 n).length

/-- The digits and exponent of a number of steps, without trailing zeros. -/
def Scientific.strip (x : Scientific) : Scientific :=
  if h : x.digits ≠ 0 ∧ x.digits % 10 = 0 then strip ⟨x.digits / 10, x.exponent + 1⟩ else x
termination_by x.digits
decreasing_by omega

/-- The shortest decimal, with at least `count` digits and at most `count + more` of them. -/
def shortestFrom (interval : Interval) (width : Nat) (count : Nat) : Nat → Scientific
  | 0 => ⟨interval.value, -unitExponent⟩
  | more + 1 =>
    let place := width - count
    match interval.nearest? (Nat.pow 10 place) with
    | some digits => ⟨digits, place - unitExponent⟩
    | none => shortestFrom interval width (count + 1) more

/-- The shortest decimal that reads back as the absolute value of a finite float, without trailing
zeros.  Seventeen digits are always enough. -/
def shortest (x : Float) : Scientific :=
  let interval := Interval.ofBinary (Binary.ofFloat x)
  (shortestFrom interval (digitCount interval.value) 1 17).strip

/-- How a decimal is laid out. -/
structure Layout where
  /-- The least exponent of the leading digit that is written without an exponent. -/
  leastPlain : Int
  /-- The greatest exponent of the leading digit that is written without an exponent. -/
  greatestPlain : Int
  /-- What stands in front of a positive exponent. -/
  positiveExponent : List Char

/-- A decimal as text.  A plain one always has a digit behind the point; one with an exponent has a
point only between two digits. -/
def Layout.chars (layout : Layout) (x : Scientific) : List Char :=
  let digits := Nat.toDigits 10 x.digits
  let leading := x.exponent + (digits.length - 1 : Nat)
  if layout.leastPlain ≤ leading ∧ leading ≤ layout.greatestPlain then
    if 0 ≤ x.exponent then digits ++ List.replicate x.exponent.toNat '0' ++ ['.', '0']
    else if 0 ≤ leading then
      let whole := (leading + 1).toNat
      digits.take whole ++ '.' :: digits.drop whole
    else '0' :: '.' :: List.replicate (-leading - 1).toNat '0' ++ digits
  else
    let exponent :=
      if leading < 0 then '-' :: Nat.toDigits 10 leading.natAbs
      else layout.positiveExponent ++ Nat.toDigits 10 leading.natAbs
    match digits with
    | first :: second :: more => first :: '.' :: second :: more ++ 'e' :: exponent
    | single => single ++ 'e' :: exponent

end SchemaEnums.Decimal
