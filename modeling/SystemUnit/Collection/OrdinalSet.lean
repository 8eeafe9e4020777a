import SystemUnit.Numeral.Digits

namespace SystemUnit

/-!
# Sets of small ordinals

An `OrdinalSet low high` is a set of the numbers from `low` to `high` that are also from 0 to 255, as a bit
for each number.  Numbers outside are never members.  Main definitions:

* `OrdinalSet.slot?` — the bit of a number;
* `OrdinalSet.insert`, `OrdinalSet.erase`, `OrdinalSet.contains` — one member;
* `OrdinalSet.union`, `OrdinalSet.inter`, `OrdinalSet.diff` — two sets;
* `OrdinalSet.compare?` — the order by inclusion.
-/

/-- A set of the ordinals from `low` to `high`; the bits of all other numbers are zero. -/
@[ext] structure OrdinalSet (low high : Int) where
  bits : BitVec 256
  bounds_of_getLsbD : ∀ e : Nat, bits.getLsbD e = true → low ≤ e ∧ e ≤ high

namespace OrdinalSet

variable {low high : Int}

/-- The set without members. -/
def empty : OrdinalSet low high := ⟨0, by simp⟩

instance : EmptyCollection (OrdinalSet low high) := ⟨empty⟩

instance : Inhabited (OrdinalSet low high) := ⟨empty⟩

instance : DecidableEq (OrdinalSet low high) := fun s t =>
  decidable_of_iff (s.bits = t.bits) OrdinalSet.ext_iff.symm

/-- The bit of a number that may be a member. -/
def slot? (low high element : Int) : Option Nat :=
  if low ≤ element ∧ element ≤ high ∧ 0 ≤ element ∧ element ≤ 255 then some element.toNat else none

theorem slot?_eq_some_iff {element : Int} {e : Nat} :
    slot? low high element = some e ↔ (e : Int) = element ∧ low ≤ e ∧ e ≤ high ∧ e < 256 := by
  unfold slot?
  split
  · rw [Option.some.injEq]; omega
  · simp only [reduceCtorEq, false_iff]; omega

/-- The set with one more member; a number outside the bounds changes nothing. -/
def insert (s : OrdinalSet low high) (element : Int) : OrdinalSet low high :=
  match h : slot? low high element with
  | some e =>
    ⟨s.bits ||| BitVec.twoPow 256 e, fun i hi => by
      have he := slot?_eq_some_iff.1 h
      rw [BitVec.getLsbD_or, BitVec.getLsbD_twoPow] at hi
      rcases Bool.or_eq_true _ _ ▸ hi with hi | hi
      · exact s.bounds_of_getLsbD i hi
      · simp only [Bool.and_eq_true, decide_eq_true_eq] at hi
        omega⟩
  | none => s

/-- The set without a member. -/
def erase (s : OrdinalSet low high) (element : Int) : OrdinalSet low high :=
  match slot? low high element with
  | some e =>
    ⟨s.bits &&& ~~~BitVec.twoPow 256 e, fun i hi => by
      rw [BitVec.getLsbD_and, Bool.and_eq_true] at hi
      exact s.bounds_of_getLsbD i hi.1⟩
  | none => s

/-- Whether a number is a member. -/
def contains (s : OrdinalSet low high) (element : Int) : Bool :=
  match slot? low high element with
  | some e => s.bits.getLsbD e
  | none => false

/-- The set of the numbers of a list. -/
def ofList (elements : List Int) : OrdinalSet low high := elements.foldl insert empty

/-- The set of the numbers from `first` to `last`. -/
def ofRange (first last : Int) : OrdinalSet low high :=
  ofList (((List.range 256).map Int.ofNat).filter fun e => first ≤ e && e ≤ last)

/-! ### Two sets -/

/-- The numbers that are members of one of two sets. -/
def union (s t : OrdinalSet low high) : OrdinalSet low high :=
  ⟨s.bits ||| t.bits, fun i hi => by
    rw [BitVec.getLsbD_or, Bool.or_eq_true] at hi
    exact hi.elim (s.bounds_of_getLsbD i) (t.bounds_of_getLsbD i)⟩

/-- The numbers that are members of both sets. -/
def inter (s t : OrdinalSet low high) : OrdinalSet low high :=
  ⟨s.bits &&& t.bits, fun i hi => by
    rw [BitVec.getLsbD_and, Bool.and_eq_true] at hi
    exact s.bounds_of_getLsbD i hi.1⟩

/-- The numbers that are members of the first set only. -/
def diff (s t : OrdinalSet low high) : OrdinalSet low high :=
  ⟨s.bits &&& ~~~t.bits, fun i hi => by
    rw [BitVec.getLsbD_and, Bool.and_eq_true] at hi
    exact s.bounds_of_getLsbD i hi.1⟩

/-- Whether every member of the first set is one of the second. -/
def isSubset (s t : OrdinalSet low high) : Bool := s.bits &&& ~~~t.bits == 0

/-- The order by inclusion; two sets that each have a member of their own are unordered. -/
def compare? (s t : OrdinalSet low high) : Option Ordering :=
  match s.isSubset t, t.isSubset s with
  | true, true => some .eq
  | true, false => some .lt
  | false, true => some .gt
  | false, false => none

/-! ### Members -/

/-- The members in ascending order. -/
def members (s : OrdinalSet low high) : List Nat :=
  (List.range 256).filter fun e => s.contains e

/-- The number of bits that are set. -/
def size (s : OrdinalSet low high) : Nat := (List.range 256).countP s.bits.getLsbD

def isEmpty (s : OrdinalSet low high) : Bool := s.bits == 0

/-- The members between braces. -/
def text (s : OrdinalSet low high) : List Char :=
  '\x7b' :: [',', ' '].intercalate (s.members.map Digits.decimal) ++ ['\x7d']

end OrdinalSet

end SystemUnit
