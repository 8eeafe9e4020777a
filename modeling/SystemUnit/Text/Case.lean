import SystemUnit.Text.Basic

namespace SystemUnit

/-!
# Case and blanks

ASCII case maps over texts, equality up to ASCII case, and texts without blanks at their ends.
-/

namespace Text

/-- A text with its small ASCII letters made capital. -/
def upper (s : Text) : Text := ⟨s.units.map CodeUnit.upper⟩

/-- A text with its capital ASCII letters made small. -/
def lower (s : Text) : Text := ⟨s.units.map CodeUnit.lower⟩

/-- Equality up to ASCII case. -/
def sameText (s t : Text) : Bool := s.upper == t.upper

/-- A text without the blanks at its start. -/
def trimLeft (s : Text) : Text := ⟨s.units.dropWhile CodeUnit.isBlank⟩

/-- A text without the blanks at its end. -/
def trimRight (s : Text) : Text := ⟨(s.units.reverse.dropWhile CodeUnit.isBlank).reverse⟩

/-- A text without the blanks at its ends. -/
def trim (s : Text) : Text := s.trimLeft.trimRight

end Text

end SystemUnit
