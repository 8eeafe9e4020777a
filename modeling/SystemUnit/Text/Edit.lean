import SystemUnit.Text.Basic

namespace SystemUnit

/-!
# Cutting and joining texts

Indexes and counts outside a text are taken as far as they reach into it.  Main definitions:

* `Text.copy` — the units from an index on, as many as asked for and there;
* `Text.delete`, `Text.insert` — a text without such units, and with others before an index.
-/

namespace Text

/-- At most `count` units from `index` on; an index below 1 counts as 1. -/
def copy (s : Text) (index count : Int) : Text :=
  ⟨(s.units.drop (max index 1 - 1).toNat).take count.toNat⟩

/-- The text without the units that `copy` gives; the whole text for an index outside it. -/
def delete (s : Text) (index count : Int) : Text :=
  match s.offset? index with
  | some i => ⟨s.units.take i ++ s.units.drop (i + count.toNat)⟩
  | none => s

/-- The text with `source` before `index`, which is first brought into the range from 1 to just after the
    end. -/
def insert (s source : Text) (index : Int) : Text :=
  let i := (max 1 (min index (s.size + 1)) - 1).toNat
  ⟨s.units.take i ++ source.units ++ s.units.drop i⟩

end Text

end SystemUnit
