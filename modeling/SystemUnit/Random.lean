import SystemUnit.Whole.Basic
import SystemUnit.Floating.Basic

namespace SystemUnit

/-!
# Random numbers

A linear congruential generator over 32 bits.  A draw replaces the seed by `134775813 * seed + 1` and scales
the new seed to what is asked for.  Main definitions:

* `Generator.next` — one step;
* `Generator.int`, `Generator.real` — draws from `0, …, range - 1` and from `[0, 1)`.
-/

/-- A generator is its seed. -/
@[ext] structure Generator where
  seed : BitVec 32
  deriving DecidableEq

namespace Generator

/-- The generator with a seed. -/
def ofSeed (seed : Whole .integer) : Generator := ⟨seed.bits⟩

instance : Inhabited Generator := ⟨⟨0⟩⟩

/-- The seed as an integer. -/
def toSeed (g : Generator) : Whole .integer := ⟨g.seed⟩

/-- How many seeds there are. -/
def seedCount : Nat := 0x100000000

/-- The generator after one draw. -/
def next (g : Generator) : Generator := ⟨g.seed * 134775813 + 1⟩

/-- A number from `0` to `range - 1`, or 0 for a range that is not positive; a number is drawn in any case. -/
def int (g : Generator) (range : Whole .integer) : Whole .integer × Generator :=
  let drawn := g.next
  let value :=
    if range.toInt ≤ 0 then 0 else drawn.seed.toNat * range.toInt.toNat / seedCount
  (Whole.ofNat .integer value, drawn)

/-- A number from 0 to less than 1. -/
def real (g : Generator) : Floating .double × Generator :=
  let drawn := g.next
  (Floating.nearest .double false drawn.seed.toNat seedCount, drawn)

end Generator

end SystemUnit
