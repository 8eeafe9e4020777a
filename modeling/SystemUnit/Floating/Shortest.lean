import SystemUnit.Floating.Basic
import SystemUnit.Numeral.Digits

namespace SystemUnit

/-!
# Shortest decimals

The shortest decimal of a floating-point number has the fewest significant digits among the decimals that
read back as that number, and is the nearest of those.  Main definitions:

* `Decimal` — significant digits and the place of the decimal point;
* `decimalExponent` — the power of ten of the leading digit of a fraction;
* `Floating.onGrid?` — the nearer neighbour on a decimal grid that reads back;
* `Floating.shortest` — the first grid, from coarse to fine, that has one.
-/

/-- The decimal `0.d₁d₂… * 10 ^ point`. -/
structure Decimal where
  digits : List Nat
  point : Int
  deriving DecidableEq

namespace Decimal

/-- The decimal `n * 10 ^ exponent` without the zeros at the end of `n`. -/
def ofScaled (n : Nat) (exponent : Int) : Decimal :=
  let ds := Digits.ofNat 10 n
  ⟨(ds.reverse.dropWhile (· == 0)).reverse, ds.length + exponent⟩

end Decimal

/-- The greatest `e` with `10 ^ e ≤ num / den`, for a positive fraction. -/
def decimalExponent (num den : Nat) : Int :=
  if den ≤ num then (Digits.ofNat 10 (num / den)).length - 1
  else -(Digits.ofNat 10 ((den + num - 1) / num - 1)).length

namespace Floating

/-- The fraction `num / den * 10 ^ shift`. -/
def scaleTen (num den : Nat) (shift : Int) : Nat × Nat :=
  if 0 ≤ shift then (num * Nat.pow 10 shift.toNat, den) else (num, den * Nat.pow 10 (-shift).toNat)

/-- The distance from `mantissa * 2 ^ exponent` down to the end of its rounding interval, in quarters of
    the last place: half as far as upwards where the numbers below lie twice as dense. -/
def gapBelow (k : FloatingKind) (mantissa : Nat) (exponent : Int) : Nat :=
  if mantissa = k.leadingOne ∧ k.leastExponent < exponent then 1 else 2

/-- The nearer neighbour of `mantissa * 2 ^ exponent` among the multiples of `10 ^ grid` that round to it,
    as a factor of `10 ^ grid`; of two equally near ones the upper.  The ends of the rounding interval
    belong to it iff the mantissa is even. -/
def onGrid? (k : FloatingKind) (mantissa : Nat) (exponent grid : Int) : Option Nat :=
  let (n, d) := scale 1 1 (exponent - 2)
  let (quarter, unit) := scaleTen n d (-grid)
  let value := 4 * mantissa * quarter
  let low := value - gapBelow k mantissa exponent * quarter
  let high := value + 2 * quarter
  let closed := mantissa % 2 == 0
  let below := value / unit
  let above := below + 1
  let belowFits := decide (low < below * unit) || (decide (low = below * unit) && closed)
  let aboveFits := decide (above * unit < high) || (decide (above * unit = high) && closed)
  if belowFits && aboveFits then
    some (if value - below * unit < above * unit - value then below else above)
  else if belowFits then some below
  else if aboveFits then some above
  else none

/-- The shortest decimal of a positive `mantissa * 2 ^ exponent`.  Seventeen digits always suffice. -/
def shortest (k : FloatingKind) (mantissa : Nat) (exponent : Int) : Decimal :=
  let (n, d) := scale mantissa 1 exponent
  let lead := decimalExponent n d
  let found := (List.range 17).findSome? fun (i : Nat) =>
    let grid := lead - (i : Int)
    (onGrid? k mantissa exponent grid).map (Decimal.ofScaled · grid)
  found.getD (Decimal.ofScaled n 0)

end Floating

end SystemUnit
