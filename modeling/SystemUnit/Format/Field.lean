import SystemUnit.Template.FieldSpec
import SystemUnit.Floating.Text

namespace SystemUnit

/-!
# Fields

Numbers and texts set in a field.  Numbers stand at the right and texts at the left if no alignment is asked
for; zeros go between the sign and the digits.  Main definitions:

* `FieldSpec.fillUp` — a text filled up to the width;
* `FieldSpec.setNumber` — sign, mark and digits, with zeros between them or filled up;
* `FieldSpec.setInteger`, `FieldSpec.setFloating`, `FieldSpec.setText` — the fields of values.
-/

namespace FieldSpec

/-- A text filled up to the width, at the side asked for or at the given one. -/
def fillUp (s : FieldSpec) (side : Alignment) (text : List Char) : List Char :=
  let missing := (s.width.elim 0 UInt64.toNat) - text.length
  let fill := s.fill.getD ' '
  match s.align.getD side with
  | .left => text ++ List.replicate missing fill
  | .right => List.replicate missing fill ++ text
  | .center =>
    List.replicate (missing / 2) fill ++ text ++ List.replicate (missing - missing / 2) fill

/-- The sign of a number. -/
def signText (s : FieldSpec) (negative : Bool) : List Char :=
  if negative then ['-']
  else
    match s.sign with
    | some .plus => ['+']
    | some .space => [' ']
    | _ => []

/-- A number in its field: zeros fill the width between the mark and the digits if they are asked for and an
    alignment is not. -/
def setNumber (s : FieldSpec) (sign mark digits : List Char) : List Char :=
  match s.width with
  | some width =>
    if s.zeroPad && s.align.isNone then
      sign ++ mark ++ Digits.padLeft '0' (width.toNat - (sign.length + mark.length)) digits
    else s.fillUp .right (sign ++ mark ++ digits)
  | none => s.fillUp .right (sign ++ mark ++ digits)

/-- The mark before the digits of a number in base sixteen. -/
def hexMark (s : FieldSpec) (mark : String) : List Char :=
  if s.alternate then mark.toList else []

/-- An integer, given by sign and size, in its field. -/
def setInteger (s : FieldSpec) (negative : Bool) (size : Nat) : List Char :=
  let sign := s.signText negative
  match s.presentation with
  | some .hex => s.setNumber sign (s.hexMark "0x") (Digits.hex false size)
  | some .hexUpper => s.setNumber sign (s.hexMark "0X") (Digits.hex true size)
  | _ => s.setNumber sign [] (Digits.decimal size)

/-- A text, cut to the precision, in its field. -/
def setText (s : FieldSpec) (text : List Char) : List Char :=
  s.fillUp .left (match s.precision with
    | some p => text.take p.toNat
    | none => text)

/-! ### Reals -/

/-- Exponent, with its sign and at least two digits. -/
def exponentText (upper : Bool) (exponent : Int) : List Char :=
  [if upper then 'E' else 'e', if exponent < 0 then '-' else '+'] ++
    Digits.padLeft '0' 2 (Digits.decimal exponent.natAbs)

/-- A number of decimal places without the zeros at its end, and without a point at its end. -/
def stripZeros (text : List Char) : List Char :=
  if text.contains '.' then
    ((text.reverse.dropWhile (· == '0')).dropWhile (· == '.')).reverse
  else text

/-- The general form of `num / den`: `digits` significant digits, with an exponent if that is below -4 or not
    below `digits`; zeros at the end go unless the alternate form is asked for. -/
def generalText (s : FieldSpec) (upper : Bool) (num den digits : Nat) : List Char :=
  let keep := if s.alternate then id else stripZeros
  let (mantissa, exponent) := Floating.scientific num den (digits - 1)
  if exponent < -4 ∨ (digits : Int) ≤ exponent then keep mantissa ++ exponentText upper exponent
  else keep (Floating.fixed num den ((digits : Int) - 1 - exponent).toNat)

/-- Whether letters are capital. -/
def isUpper (s : FieldSpec) : Bool :=
  s.presentation = some .exponentUpper || s.presentation = some .generalUpper

/-- The digits of a finite size `mantissa * 2 ^ exponent` in the form asked for, with six places or digits if
    there is no precision, or the shortest ones. -/
def floatingDigits (s : FieldSpec) (k : FloatingKind) (mantissa : Nat) (exponent : Int) : List Char :=
  let (num, den) := Floating.scale mantissa 1 exponent
  let precision := s.precision.elim 6 UInt64.toNat
  match s.presentation with
  | some .fixed => Floating.fixed num den precision
  | some .exponent | some .exponentUpper =>
    let (text, e) := Floating.scientific num den precision
    text ++ exponentText s.isUpper e
  | some .general | some .generalUpper => s.generalText s.isUpper num den (max precision 1)
  | _ => (Floating.Magnitude.parts k (.finite mantissa exponent)).flatten

/-- A real in its field.  Infinity and not-a-number are words, and never filled with zeros. -/
def setFloating (s : FieldSpec) {k : FloatingKind} (a : Floating k) : List Char :=
  match a.magnitude with
  | .finite m e => s.setNumber (s.signText a.isNegative) [] (s.floatingDigits k m e)
  | .infinite =>
    let word := if s.isUpper then "INF" else "inf"
    s.fillUp .right (s.signText a.isNegative ++ word.toList)
  | .notANumber =>
    let word := if s.isUpper then "NAN" else "nan"
    s.fillUp .right (s.signText false ++ word.toList)

end FieldSpec

end SystemUnit
