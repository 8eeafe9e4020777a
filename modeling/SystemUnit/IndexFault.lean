import SystemUnit.Numeral.Digits

namespace SystemUnit

/-!
# Faulty indexes

Direct indexing outside a text or an array stops the program: there is no value to go on with.
-/

/-- An index outside a text, whose first index is 1, or outside an array, whose first index is 0. -/
inductive IndexFault where
  | text (index : Int) (length : Nat)
  | array (index : Int) (length : Nat)
  deriving DecidableEq

/-- What the program says as it stops. -/
def IndexFault.message : IndexFault → List Char
  | text index length =>
    "string index ".toList ++ Digits.signedDecimal index ++ " out of range 1..=".toList ++
      Digits.decimal length
  | array index length =>
    "array index ".toList ++ Digits.signedDecimal index ++ " out of range 0..".toList ++
      Digits.decimal length

end SystemUnit
