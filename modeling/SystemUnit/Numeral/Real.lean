import SystemUnit.Numeral.Integer
import SystemUnit.Floating.Basic

namespace SystemUnit

/-!
# Real numerals

A real numeral is blanks, a sign, digits with a point before, among or after them, and an exponent.  A letter
that no exponent follows ends the numeral.  Main definitions:

* `Numeral.decimalRun` — the decimal digits at the start;
* `Numeral.exponent` — an exponent at the start;
* `Numeral.scanReal` — the number nearest to a numeral.
-/

namespace Numeral

/-- The decimal digits at the start. -/
def decimalRun : List CodeUnit → List Nat
  | [] => []
  | c :: rest =>
    match Digits.ofCode 10 c.toNat with
    | some d => d :: decimalRun rest
    | none => []

/-- The exponent at the start and its length; zero of length zero if there is none. -/
def exponent (units : List CodeUnit) : Int × Nat :=
  if startsWith 'e' units || startsWith 'E' units then
    let (negative, signLength) := sign units.tail
    let digits := decimalRun (units.drop (1 + signLength))
    let size : Int := Digits.value 10 digits
    if digits.isEmpty then (0, 0)
    else (if negative then -size else size, 1 + signLength + digits.length)
  else (0, 0)

/-- The number nearest to the numeral at the start and the offset of its end; a numeral without a digit fails
    at its first unit. -/
def scanReal (units : List CodeUnit) : Except Nat (Floating .double × Nat) :=
  let start := blanks units
  let (negative, signLength) := sign (units.drop start)
  let whole := decimalRun (units.drop (start + signLength))
  let point := start + signLength + whole.length
  let pointLength := if startsWith '.' (units.drop point) then 1 else 0
  let places :=
    if pointLength = 1 then decimalRun (units.drop (point + 1)) else []
  let stop := point + pointLength + places.length
  let (shift, exponentLength) := exponent (units.drop stop)
  if whole.isEmpty && places.isEmpty then .error start
  else
    .ok (Floating.ofDecimal .double negative (Digits.value 10 (whole ++ places))
      (shift - places.length), stop + exponentLength)

end Numeral

end SystemUnit
