import SystemUnit.CodeUnit
import SystemUnit.Numeral.Digits

namespace SystemUnit

/-!
# Integer numerals

An integer numeral is blanks, a sign, a mark for base sixteen and digits.  A decimal numeral must have a value
of the width it is read for; a numeral in base sixteen is the bit pattern of such a value, and a minus sign
before it negates that value.  Offsets count the code units before a place.  Main definitions:

* `blanks` — the blanks at the start;
* `Numeral.digitRun` — digits up to a limit;
* `Numeral.scanWide` — a numeral for a width in bits;
* `Numeral.scan` — a numeral whose value is an integer of 64 bits.
-/

/-- The number of blanks at the start. -/
def blanks (units : List CodeUnit) : Nat :=
  (units.takeWhile CodeUnit.isBlank).length

/-- Whether a list of units starts with a character. -/
def startsWith (c : Char) (units : List CodeUnit) : Bool :=
  units.head?.any (·.toNat == c.toNat)

namespace Numeral

/-- Whether there is a minus sign at the start, and how long the sign is. -/
def sign (units : List CodeUnit) : Bool × Nat :=
  if startsWith '-' units then (true, 1)
  else if startsWith '+' units then (false, 1)
  else (false, 0)

/-- The radix of what follows, and the length of the mark that says so. -/
def radixMark (units : List CodeUnit) : Nat × Nat :=
  if startsWith '$' units then (16, 1)
  else if startsWith '0' units && (startsWith 'x' units.tail || startsWith 'X' units.tail) then (16, 2)
  else (10, 0)

/-- As `radixMark`, where digits without a mark are in base sixteen too and a dollar sign is no mark. -/
def hexMark (units : List CodeUnit) : Nat × Nat :=
  if startsWith '0' units && (startsWith 'x' units.tail || startsWith 'X' units.tail) then (16, 2)
  else (16, 0)

/-- The digits at the start, after others of value `value`, and how many there are; an error with the number
    of digits before the one that takes the value above the limit. -/
def digitRun (radix limit value : Nat) : List CodeUnit → Except Nat (Nat × Nat)
  | [] => .ok (value, 0)
  | c :: rest =>
    match Digits.ofCode radix c.toNat with
    | none => .ok (value, 0)
    | some d =>
      let next := value * radix + d
      if limit < next then .error 0
      else
        match digitRun radix limit next rest with
        | .ok (v, n) => .ok (v, n + 1)
        | .error n => .error (n + 1)

/-- The greatest size of a numeral for a width: that of a number of the sign, or the pattern of ones. -/
def limit (bits radix : Nat) (negative : Bool) : Nat :=
  if radix = 10 then Nat.pow 2 (bits - 1) - (if negative then 0 else 1) else Nat.pow 2 bits - 1

/-- The number that the digits of a numeral stand for, before the sign is taken into account. -/
def interpret (bits radix size : Nat) : Int :=
  if radix = 10 then size else (size : Int).bmod (Nat.pow 2 bits)

/-- The value of the numeral at the start and the offset of its end, or the offset of the unit at which it
    fails.  `mark` finds the radix. -/
def scanWide (bits : Nat) (mark : List CodeUnit → Nat × Nat) (units : List CodeUnit) :
    Except Nat (Int × Nat) :=
  let start := blanks units
  let (negative, signLength) := sign (units.drop start)
  let (radix, markLength) := mark (units.drop (start + signLength))
  let first := start + signLength + markLength
  match digitRun radix (limit bits radix negative) 0 (units.drop first) with
  | .error n => .error (first + n)
  | .ok (size, count) =>
    let value := interpret bits radix size
    if count = 0 then .error first
    else .ok (if negative then -value else value, first + count)

/-- As `scanWide`; a value that has no place in 64 bits fails at the first unit that is no blank. -/
def scan (bits : Nat) (mark : List CodeUnit → Nat × Nat) (units : List CodeUnit) :
    Except Nat (Int × Nat) :=
  match scanWide bits mark units with
  | .ok (value, stop) =>
    if WholeKind.int64.least ≤ value ∧ value ≤ WholeKind.int64.greatest then .ok (value, stop)
    else .error (blanks units)
  | .error n => .error n

end Numeral

/-- The value of a scan after which nothing but blanks is left. -/
def whole? {α : Type} (units : List CodeUnit) (scanned : Except Nat (α × Nat)) : Option α :=
  match scanned with
  | .ok (value, stop) => if (units.drop stop).all CodeUnit.isBlank then some value else none
  | .error _ => none

end SystemUnit
