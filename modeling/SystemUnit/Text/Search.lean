import SystemUnit.Text.Basic

namespace SystemUnit

/-!
# Searching and replacing

The empty text occurs nowhere.  Main definitions:

* `Text.find?` — the units before the first occurrence of one list in another;
* `Text.pos`, `Text.posFrom` — the index of the first occurrence, 0 if there is none;
* `Text.replace` — every occurrence from the left replaced, what was put in not searched again.
-/

namespace Text

/-- How many units stand before the first occurrence of `pattern`. -/
def find? (pattern : List CodeUnit) : List CodeUnit → Option Nat
  | [] => none
  | c :: rest =>
    if !pattern.isEmpty && pattern.isPrefixOf (c :: rest) then some 0
    else (find? pattern rest).map (· + 1)

/-- The index of the first occurrence of `sub` at or after an index, as an integer of 32 bits; 0 if there is
    none, or if the search does not start in the text. -/
def posFrom (s sub : Text) (index : Int) : Whole .integer :=
  let found := (s.offset? index).bind fun start =>
    (find? sub.units (s.units.drop start)).map (start + · + 1)
  Whole.ofNat .integer (found.getD 0)

/-- The index of the first occurrence of `sub`, or 0. -/
def pos (s sub : Text) : Whole .integer := s.posFrom sub 1

/-- Replaces every occurrence of `old`, from the left. -/
def replaceUnits (old new : List CodeUnit) : List CodeUnit → List CodeUnit
  | [] => []
  | c :: rest =>
    if !old.isEmpty && old.isPrefixOf (c :: rest) then
      new ++ replaceUnits old new (rest.drop (old.length - 1))
    else c :: replaceUnits old new rest
  termination_by units => units.length
  decreasing_by all_goals simp only [List.length_drop, List.length_cons]; omega

/-- Replaces every occurrence of `old`, from the left. -/
def replace (s old new : Text) : Text := ⟨replaceUnits old.units new.units s.units⟩

end Text

end SystemUnit
