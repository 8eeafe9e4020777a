import SystemUnit.Floating.Shortest

namespace SystemUnit

/-!
# Floating-point numbers as text

Three forms of a number: the positional form of the shortest decimal, a fixed number of decimal places, and
one digit before the point with an exponent.  The last two round the exact binary value, ties to the even
digit.  Main definitions:

* `Decimal.positionalParts` — the parts in which a decimal is written out;
* `Floating.fixed`, `Floating.scientific` — the rounded forms of a magnitude;
* `Floating.text` — the form in which a number is written if nothing else is asked for.
-/

/-- A run of zeros, in parts of at most 64. -/
def zeroParts (n : Nat) : List (List Char) :=
  List.replicate (n / 64) (List.replicate 64 '0') ++
    (if n % 64 = 0 then [] else [List.replicate (n % 64) '0'])

namespace Decimal

/-- The digits of a decimal as characters. -/
def chars (d : Decimal) : List Char :=
  d.digits.map (Digits.char false)

/-- A decimal written without an exponent, in the parts in which it is written out: the digits stand
    behind the point, on both sides of it, or before a run of zeros. -/
def positionalParts (d : Decimal) : List (List Char) :=
  if d.point ≤ 0 then ['0', '.'] :: zeroParts (-d.point).toNat ++ [d.chars]
  else if d.point < d.digits.length then
    [d.chars.take d.point.toNat, ['.'], d.chars.drop d.point.toNat]
  else d.chars :: zeroParts (d.point - d.digits.length).toNat

end Decimal

namespace Floating

variable {k : FloatingKind}

/-- The exact value of `num / den` rounded to `places` decimal places. -/
def fixed (num den places : Nat) : List Char :=
  let digits := Digits.padLeft '0' (places + 1) (Digits.decimal (roundEven (num * Nat.pow 10 places) den))
  let split := digits.length - places
  if places = 0 then digits else digits.take split ++ '.' :: digits.drop split

/-- The mantissa, with `places` decimal places, and the exponent of the exact value of `num / den`. -/
def scientific (num den places : Nat) : List Char × Int :=
  let lead := if num = 0 then 0 else decimalExponent num den
  let (n, d) := scaleTen num den (places - lead)
  let rounded := roundEven n d
  let (digits, exponent) :=
    if rounded = Nat.pow 10 (places + 1) then (Nat.pow 10 places, lead + 1) else (rounded, lead)
  match Digits.padLeft '0' (places + 1) (Digits.decimal digits) with
  | [] => ([], exponent)
  | [d] => ([d], exponent)
  | d :: rest => (d :: '.' :: rest, exponent)

/-- A number without its sign in the shortest positional form, in the parts in which it is written. -/
def Magnitude.parts (k : FloatingKind) : Magnitude → List (List Char)
  | .finite 0 _ => [['0']]
  | .finite m e => (shortest k m e).positionalParts
  | .infinite => ["inf".toList]
  | .notANumber => ["NaN".toList]

/-- A number in the shortest positional form, in the parts in which it is written; not-a-number has no
    sign. -/
def parts (a : Floating k) : List (List Char) :=
  let unsigned := Magnitude.parts k a.magnitude
  if a.isNegative && !a.isNaN then ['-'] :: unsigned else unsigned

/-- A number in the shortest positional form. -/
def text (a : Floating k) : List Char :=
  a.parts.flatten

/-- A number rounded to `places` decimal places. -/
def fixedText (a : Floating k) (places : Nat) : List Char :=
  match a.magnitude with
  | .finite m e =>
    let (n, d) := scale m 1 e
    let unsigned := fixed n d places
    if a.isNegative then '-' :: unsigned else unsigned
  | _ => a.text

end Floating

end SystemUnit
