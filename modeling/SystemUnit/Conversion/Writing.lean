import SystemUnit.Scalar.Basic
import SystemUnit.Format.Basic

namespace SystemUnit

/-!
# Texts from values

Main definitions:

* `intToStr`, `floatToStr`, `boolToStr` — values in their usual form;
* `intToHex`, `intToHex?` — a bit pattern in base sixteen, with zeros before it;
* `strInt`, `strFloat` — numbers at the right of a field.
-/

/-- An integer in decimal. -/
def intToStr {k : WholeKind} (a : Whole k) : Text := .ofChars (Digits.signedDecimal a.toInt)

/-- The bit pattern of an integer in base sixteen, with at least `digits` digits. -/
def intToHex {k : WholeKind} (a : Whole k) (digits : Int) : Text :=
  .ofChars (Digits.padLeft '0' digits.toNat (Digits.hex true a.toNat))

/-- The same, if so many digits may be asked for. -/
def intToHex? {k : WholeKind} (a : Whole k) (digits : Int) : Option Text :=
  if digits ≤ Digits.greatestWidth then some (intToHex a digits) else none

/-- A truth value as a word, or as a number. -/
def boolToStr (b words : Bool) : Text :=
  if words then .ofChars (Scalar.boolWord b) else .ofString (if b then "-1" else "0")

/-- A real with six decimal places. -/
def floatToStr (a : Floating .double) : Text := .ofChars (a.fixedText 6)

/-- A count of a field: at most the greatest one, and a default if it is negative. -/
def fieldCount (count : Int) (default : Nat) : Nat :=
  if count < 0 then default else min count.toNat greatestField

/-- An integer at the right of a field. -/
def strInt {k : WholeKind} (a : Whole k) (width : Int) : Text :=
  .ofChars (Digits.padLeft ' ' (fieldCount width 0) (Digits.signedDecimal a.toInt))

/-- A real with a number of decimal places, six if that is negative, at the right of a field. -/
def strFloat (a : Floating .double) (width decimals : Int) : Text :=
  .ofChars (Digits.padLeft ' ' (fieldCount width 0) (a.fixedText (fieldCount decimals 6)))

end SystemUnit
