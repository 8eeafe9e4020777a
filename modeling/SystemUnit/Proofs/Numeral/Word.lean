import SystemUnit.Proofs.Numeral.Run

namespace SystemUnit

namespace Numeral

/-!
# Numerals as they are written

An integer numeral is written as a sign, a mark for base sixteen and digits, each of the first two only if it is
needed.  This is a grammar, and says nothing of limits or of how a numeral is scanned.

* `Sign`, `Mark`, `Word` — the parts of a numeral, and the numeral with its digits;
* `Word.units`, `Word.size`, `Word.signed` — how it is written, and the number of its digits without and with its sign;
* `Word.IsIn` — units that are the numeral with blanks around it;
* `Word.sign_units`, `Word.isIn_iff` — its sign is found at its start, and without blanks it takes all;
* `Word.scanWide`, `scanWide_eq_ok` — a numeral within the limit of a width is scanned, and nothing else is;
* `whole?_scanWide_eq_some_iff` — the numerals that units are read as, and their values.
-/

/-- The sign before a numeral. -/
inductive Sign where
  | none
  | plus
  | minus
  deriving DecidableEq

/-- The mark before the digits: none in decimal; a dollar sign, or a zero and an x, in base sixteen. -/
inductive Mark where
  | none
  | dollar
  | smallX
  | capitalX
  deriving DecidableEq

namespace Sign

/-- How a sign is written. -/
def units : Sign → List CodeUnit
  | none => []
  | plus => [0x2B]
  | minus => [0x2D]

def isMinus (s : Sign) : Bool := s = minus

end Sign

namespace Mark

/-- How a mark is written. -/
def units : Mark → List CodeUnit
  | none => []
  | dollar => [0x24]
  | smallX => [0x30, 0x78]
  | capitalX => [0x30, 0x58]

/-- The radix of the digits behind a mark. -/
def radix : Mark → Nat
  | none => 10
  | dollar | smallX | capitalX => 16

/-- There is a radix to write in. -/
theorem radix_pos (m : Mark) : 0 < m.radix := by
  cases m <;> decide

theorem radix_eq_ten_iff {m : Mark} : m.radix = 10 ↔ m = .none := by
  cases m <;> decide

end Mark

/-- A numeral as it is written: a sign, a mark, and digits of the radix that the mark says, one at least. -/
structure Word where
  sign : Sign
  mark : Mark
  digits : List CodeUnit
  digits_ne_nil : digits ≠ []
  isDigit : ∀ u ∈ digits, isDigitIn mark.radix u = true

namespace Word

variable (w : Word)

/-- How a numeral is written. -/
def units : List CodeUnit := w.sign.units ++ (w.mark.units ++ w.digits)

/-- The number of the digits, without the sign. -/
def size : Nat := Digits.value w.mark.radix (digitsOf w.mark.radix w.digits)

/-- The number of the digits, negated behind a minus sign. -/
def signed : Int := if w.sign.isMinus then -w.size else w.size

/-- Units that are a numeral with blanks before and behind it, if any. -/
def IsIn (units : List CodeUnit) : Prop :=
  ∃ before after, (∀ u ∈ before, CodeUnit.isBlank u = true) ∧ (∀ u ∈ after, CodeUnit.isBlank u = true) ∧
    units = before ++ w.units ++ after

/-- The number that a numeral is read as at a width, before it is cut: its digits in base sixteen are a bit pattern
    of the width. -/
def valueIn (bits : Nat) : Int :=
  if w.sign.isMinus then -interpret bits w.mark.radix w.size else interpret bits w.mark.radix w.size

variable {w} {bits : Nat} {units : List CodeUnit}

/-- A decimal numeral is read as its number at every width. -/
theorem valueIn_of_unmarked (unmarked : w.mark = .none) : w.valueIn bits = w.signed := by
  rw [valueIn, interpret, if_pos (Mark.radix_eq_ten_iff.mpr unmarked)]
  rfl

/-- A numeral with the sign and the size of an integer is one of the integer. -/
theorem signed_eq_of_natAbs {n : Int} (sign : w.sign.isMinus = decide (n < 0)) (size : w.size = n.natAbs) :
    w.signed = n := by
  rw [signed, size, sign]
  by_cases negative : n < 0
  · rw [decide_eq_true negative, if_pos rfl]
    omega
  · rw [decide_eq_false negative, if_neg Bool.false_ne_true]
    omega

/-- A numeral is there without blanks. -/
theorem isIn_units (w : Word) : w.IsIn w.units :=
  ⟨[], [], List.forall_mem_nil _, List.forall_mem_nil _, by simp⟩

/-- Where there are no blanks, a numeral takes all. -/
theorem isIn_iff (notBlank : ∀ u ∈ units, CodeUnit.isBlank u = false) : w.IsIn units ↔ w.units = units := by
  constructor
  · rintro ⟨before, after, blank, blank', rfl⟩
    -- units that are blanks and stand among units that are not
    have none : ∀ l : List CodeUnit, (∀ u ∈ l, CodeUnit.isBlank u = true) →
        (∀ u ∈ l, u ∈ before ++ w.units ++ after) → l = [] := by
      intro l blank sub
      apply List.eq_nil_iff_forall_not_mem.mpr
      intro u mem
      exact absurd (blank u mem) (Bool.eq_false_iff.mp (notBlank u (sub u mem)))
    have noBefore := none before blank fun u mem => by simp [mem]
    have noAfter := none after blank' fun u mem => by simp [mem]
    rw [noBefore, noAfter, List.nil_append, List.append_nil]
  · rintro rfl
    exact w.isIn_units

end Word

/-! ### The start of a numeral -/

variable {c : Char} {u : CodeUnit} {units : List CodeUnit}

theorem startsWith_cons : startsWith c (u :: units) = (u.toNat == c.toNat) := rfl

/-- Units that start with a character have its code first. -/
theorem startsWith_eq_true (code : u.toNat = c.toNat) (h : startsWith c units = true) :
    ∃ rest, units = u :: rest := by
  cases units with
  | nil => cases h
  | cons v rest =>
    rw [startsWith_cons, beq_iff_eq, ← code, UInt16.toNat_inj] at h
    exact ⟨rest, by rw [h]⟩

/-- The sign that is found is the one that is there. -/
theorem sign_spec (units : List CodeUnit) :
    ∃ (s : Sign) (rest : List CodeUnit), units = s.units ++ rest ∧ sign units = (s.isMinus, s.units.length) := by
  unfold sign
  -- a minus, a plus, and neither
  split
  · rename_i minus
    obtain ⟨rest, rfl⟩ := startsWith_eq_true (u := 0x2D) rfl minus
    exact ⟨.minus, rest, rfl, rfl⟩
  · split
    · rename_i plus
      obtain ⟨rest, rfl⟩ := startsWith_eq_true (u := 0x2B) rfl plus
      exact ⟨.plus, rest, rfl, rfl⟩
    · exact ⟨.none, units, rfl, rfl⟩

/-- The mark that is found is the one that is there. -/
theorem radixMark_spec (units : List CodeUnit) :
    ∃ (m : Mark) (rest : List CodeUnit), units = m.units ++ rest ∧ radixMark units = (m.radix, m.units.length) := by
  unfold radixMark
  split
  · rename_i dollar
    obtain ⟨rest, rfl⟩ := startsWith_eq_true (u := 0x24) rfl dollar
    exact ⟨.dollar, rest, rfl, rfl⟩
  · split
    · rename_i mark
      rw [Bool.and_eq_true, Bool.or_eq_true] at mark
      obtain ⟨tail, rfl⟩ := startsWith_eq_true (u := 0x30) rfl mark.1
      -- the letter behind a zero may be small or capital
      rcases mark.2 with small | capital
      · obtain ⟨rest, rfl⟩ := startsWith_eq_true (u := 0x78) rfl small
        exact ⟨.smallX, rest, rfl, rfl⟩
      · obtain ⟨rest, rfl⟩ := startsWith_eq_true (u := 0x58) rfl capital
        exact ⟨.capitalX, rest, rfl, rfl⟩
    · exact ⟨.none, units, rfl, rfl⟩

/-! ### The parts of a numeral -/

/-- The blanks, the sign and the mark before `body` are what a scan finds there. -/
structure Found (before : List CodeUnit) (s : Sign) (m : Mark) (body : List CodeUnit) : Prop where
  blank : ∀ u ∈ before, CodeUnit.isBlank u = true
  start : blanks (before ++ (s.units ++ (m.units ++ body))) = before.length
  signed : sign (s.units ++ (m.units ++ body)) = (s.isMinus, s.units.length)
  marked : radixMark (m.units ++ body) = (m.radix, m.units.length)

variable {before body rest : List CodeUnit} {s : Sign} {m : Mark} {bits : Nat}

/-- All units start with blanks and a sign, if any. -/
theorem exists_start (units : List CodeUnit) :
    ∃ (before : List CodeUnit) (s : Sign) (tail : List CodeUnit), units = before ++ (s.units ++ tail) ∧
      (∀ u ∈ before, CodeUnit.isBlank u = true) ∧ blanks (before ++ (s.units ++ tail)) = before.length ∧
      sign (s.units ++ tail) = (s.isMinus, s.units.length) := by
  -- the blanks are passed over first, and then the sign is looked for
  obtain ⟨s, tail, tail_eq, signed⟩ := sign_spec (units.dropWhile CodeUnit.isBlank)
  have units_eq : units = units.takeWhile CodeUnit.isBlank ++ (s.units ++ tail) := by
    rw [← tail_eq, List.takeWhile_append_dropWhile]
  refine ⟨units.takeWhile CodeUnit.isBlank, s, tail, units_eq, ?_, ?_, ?_⟩
  · intro u mem
    exact List.all_eq_true.mp List.all_takeWhile u mem
  · rw [← units_eq]
    rfl
  · rw [← tail_eq]
    exact signed

/-- Something is found in all units. -/
theorem exists_found (units : List CodeUnit) :
    ∃ before s m body, units = before ++ (s.units ++ (m.units ++ body)) ∧ Found before s m body := by
  obtain ⟨before, s, tail, rfl, blank, start, signed⟩ := exists_start units
  obtain ⟨m, body, rfl, marked⟩ := radixMark_spec tail
  exact ⟨before, s, m, body, rfl, blank, start, signed, marked⟩

/-- The blanks, the sign and the mark before `body` are found there, where the mark is written as `lead`. -/
structure FoundBy (mark : List CodeUnit → Nat × Nat) (before : List CodeUnit) (s : Sign) (m : Mark)
    (lead body : List CodeUnit) : Prop where
  start : blanks (before ++ (s.units ++ (lead ++ body))) = before.length
  signed : sign (s.units ++ (lead ++ body)) = (s.isMinus, s.units.length)
  marked : mark (lead ++ body) = (m.radix, lead.length)

variable {mark : List CodeUnit → Nat × Nat} {lead : List CodeUnit}

/-- A scan goes on with the digits behind what it has found, however it finds a mark. -/
theorem FoundBy.scanWide (found : FoundBy mark before s m lead body) :
    scanWide bits mark (before ++ (s.units ++ (lead ++ body))) =
      match digitRun m.radix (limit bits m.radix s.isMinus) 0 body with
      | .error n => .error (before.length + s.units.length + lead.length + n)
      | .ok (size, count) =>
        if count = 0 then .error (before.length + s.units.length + lead.length)
        else .ok (if s.isMinus then -interpret bits m.radix size else interpret bits m.radix size,
          before.length + s.units.length + lead.length + count) := by
  -- the run of digits begins behind the blanks, the sign and the mark
  have behind : (before ++ (s.units ++ (lead ++ body))).drop (before.length + s.units.length) = lead ++ body := by
    rw [← List.drop_drop, List.drop_left, List.drop_left]
  have inside : (before ++ (s.units ++ (lead ++ body))).drop
      (before.length + s.units.length + lead.length) = body := by
    rw [← List.drop_drop, behind, List.drop_left]
  unfold Numeral.scanWide
  cases run : digitRun m.radix (limit bits m.radix s.isMinus) 0 body with
  | error n => simp only [found.start, List.drop_left, found.signed, behind, found.marked, inside, run]
  | ok scanned => simp only [found.start, List.drop_left, found.signed, behind, found.marked, inside, run]

theorem Found.foundBy (found : Found before s m body) : FoundBy radixMark before s m m.units body :=
  ⟨found.start, found.signed, found.marked⟩

/-- A scan goes on with the digits behind what it has found. -/
theorem Found.scanWide (found : Found before s m body) :
    scanWide bits radixMark (before ++ (s.units ++ (m.units ++ body))) =
      match digitRun m.radix (limit bits m.radix s.isMinus) 0 body with
      | .error n => .error (before.length + s.units.length + m.units.length + n)
      | .ok (size, count) =>
        if count = 0 then .error (before.length + s.units.length + m.units.length)
        else .ok (if s.isMinus then -interpret bits m.radix size else interpret bits m.radix size,
          before.length + s.units.length + m.units.length + count) :=
  found.foundBy.scanWide

/-! ### Numerals are scanned -/

/-- The codes of digits: letters are digits only above ten. -/
theorem range_of_isDigitIn {radix : Nat} (h : isDigitIn radix u = true) :
    0x30 ≤ u.toNat ∧ (radix ≤ 10 → u.toNat ≤ 0x39) := by
  unfold isDigitIn Digits.ofCode at h
  dsimp only at h
  -- digits, and then the letters of either case
  split at h
  · omega
  · split at h
    · simp only [Option.filter_some, Option.isSome_ite, decide_eq_true_eq] at h
      omega
    · split at h
      · simp only [Option.filter_some, Option.isSome_ite, decide_eq_true_eq] at h
        omega
      · simp at h

/-- The codes of blanks come before those of digits. -/
theorem lt_of_isBlank (h : CodeUnit.isBlank u = true) : u.toNat < 0x30 := by
  unfold CodeUnit.isBlank at h
  simp only [Bool.or_eq_true, beq_iff_eq] at h
  rcases h with ((rfl | rfl) | rfl) | rfl <;> decide

/-- Units whose first code is another do not start with a character. -/
theorem startsWith_eq_false (h : ∀ u ∈ units.head?, u.toNat ≠ c.toNat) : startsWith c units = false := by
  cases units with
  | nil => rfl
  | cons u units =>
    rw [startsWith_cons, beq_eq_false_iff_ne]
    exact h u rfl

/-- Blanks are counted up to the first unit that is none. -/
theorem blanks_append (blank : ∀ u ∈ before, CodeUnit.isBlank u = true)
    (ends : ∀ u ∈ rest.head?, CodeUnit.isBlank u = false) : blanks (before ++ rest) = before.length := by
  have none : rest.takeWhile CodeUnit.isBlank = [] := by
    -- what comes behind the blanks begins with none, or is nothing
    cases rest with
    | nil => rfl
    | cons u rest =>
      apply List.takeWhile_cons_of_neg
      rw [ends u rfl]
      exact Bool.false_ne_true
  rw [blanks, List.takeWhile_append_of_pos blank, none, List.append_nil]

/-- What follows the sign and the mark of a numeral starts with a digit. -/
theorem Word.exists_digits (w : Word) :
    ∃ d ds, w.digits = d :: ds ∧ 0x30 ≤ d.toNat ∧ (w.mark = .none → ∀ u ∈ w.digits, u.toNat ≤ 0x39) := by
  obtain ⟨d, ds, digits⟩ := List.exists_cons_of_ne_nil w.digits_ne_nil
  refine ⟨d, ds, digits, ?_, ?_⟩
  · apply (range_of_isDigitIn (w.isDigit d _)).1
    rw [digits]
    exact List.mem_cons_self
  · -- without a mark the radix is ten
    intro unmarked u mem
    apply (range_of_isDigitIn (w.isDigit u mem)).2
    rw [unmarked]
    decide

/-- A sign is found before a unit that is none. -/
theorem sign_append (s : Sign) (behind : ∀ u ∈ rest.head?, u.toNat ≠ '-'.toNat ∧ u.toNat ≠ '+'.toNat) :
    sign (s.units ++ rest) = (s.isMinus, s.units.length) := by
  cases s with
  | plus | minus => rfl
  | none =>
    show sign rest = (false, 0)
    rw [sign, startsWith_eq_false fun u mem => (behind u mem).1, startsWith_eq_false fun u mem => (behind u mem).2]
    rfl

/-- No digit is a sign, a point or a blank. -/
theorem ne_of_isDigitIn {radix : Nat} (digit : isDigitIn radix u = true) :
    u.toNat ≠ '-'.toNat ∧ u.toNat ≠ '+'.toNat ∧ u.toNat ≠ '.'.toNat ∧ CodeUnit.isBlank u = false := by
  have least : 0x30 ≤ u.toNat := (range_of_isDigitIn digit).1
  refine ⟨?_, ?_, ?_, ?_⟩
  · exact Nat.ne_of_gt (Nat.lt_of_lt_of_le (by decide) least)
  · exact Nat.ne_of_gt (Nat.lt_of_lt_of_le (by decide) least)
  · exact Nat.ne_of_gt (Nat.lt_of_lt_of_le (by decide) least)
  · rw [← Bool.not_eq_true]
    intro blank
    exact absurd (lt_of_isBlank blank) (Nat.not_lt.mpr least)

/-- A numeral without a mark is not taken for one with a mark, as a blank or nothing follows it. -/
theorem Word.radixMark_units (w : Word) (ends : ∀ u ∈ rest.head?, CodeUnit.isBlank u = true) :
    radixMark (w.mark.units ++ (w.digits ++ rest)) = (w.mark.radix, w.mark.units.length) := by
  obtain ⟨d, ds, digits, least, greatest⟩ := w.exists_digits
  cases mark : w.mark with
  | dollar | smallX | capitalX => rfl
  | none =>
    rw [digits] at greatest ⊢
    have digit := greatest mark
    -- the second unit is a digit, or the first one behind the numeral: in no case an x
    have second : ∀ u ∈ (ds ++ rest).head?, u.toNat ≤ 0x39 := by
      intro u mem
      cases ds with
      | nil => exact Nat.le_of_lt (Nat.lt_trans (lt_of_isBlank (ends u mem)) (by decide))
      | cons e ds =>
        cases mem
        exact digit u (List.mem_cons_of_mem d List.mem_cons_self)
    have noDollar : startsWith '$' (d :: (ds ++ rest)) = false := by
      apply startsWith_eq_false
      intro u mem
      cases mem
      exact Nat.ne_of_gt (Nat.lt_of_lt_of_le (by decide) least)
    have noX : ∀ c : Char, 0x39 < c.toNat → startsWith c (ds ++ rest) = false := by
      intro c large
      apply startsWith_eq_false
      intro u mem
      exact Nat.ne_of_lt (Nat.lt_of_le_of_lt (second u mem) large)
    show radixMark (d :: (ds ++ rest)) = (10, 0)
    rw [radixMark, noDollar, List.tail_cons, noX 'x' (by decide), noX 'X' (by decide)]
    simp

/-- A sign and a mark are found behind blanks if what comes behind the sign starts with neither a sign nor a blank. -/
theorem foundBy_of_head (blank : ∀ u ∈ before, CodeUnit.isBlank u = true)
    (behind : ∀ u ∈ (lead ++ body).head?, u.toNat ≠ '-'.toNat ∧ u.toNat ≠ '+'.toNat ∧ CodeUnit.isBlank u = false)
    (marked : mark (lead ++ body) = (m.radix, lead.length)) : FoundBy mark before s m lead body := by
  refine ⟨?_, ?_, marked⟩
  · apply blanks_append blank
    intro u mem
    -- the blanks end at the sign, or where there is none at what comes then
    cases s with
    | plus | minus =>
      cases mem
      decide
    | none => exact (behind u mem).2.2
  · exact sign_append s fun u mem => ⟨(behind u mem).1, (behind u mem).2.1⟩

/-- The sign and the mark of a numeral are found, between blanks. -/
theorem Word.found (w : Word) (blank : ∀ u ∈ before, CodeUnit.isBlank u = true)
    (ends : ∀ u ∈ rest.head?, CodeUnit.isBlank u = true) : Found before w.sign w.mark (w.digits ++ rest) := by
  obtain ⟨d, ds, digits, -, -⟩ := w.exists_digits
  -- behind the sign comes a digit or a dollar sign, and neither is a sign or a blank
  have behind : ∀ u ∈ (w.mark.units ++ (w.digits ++ rest)).head?,
      u.toNat ≠ '-'.toNat ∧ u.toNat ≠ '+'.toNat ∧ CodeUnit.isBlank u = false := by
    intro u mem
    rw [digits] at mem
    cases mark : w.mark with
    | dollar | smallX | capitalX =>
      rw [mark] at mem
      cases mem
      decide
    | none =>
      rw [mark] at mem
      cases mem
      have other := ne_of_isDigitIn (w.isDigit d (digits ▸ List.mem_cons_self))
      exact ⟨other.1, other.2.1, other.2.2.2⟩
  have found := foundBy_of_head (s := w.sign) blank behind (w.radixMark_units ends)
  exact ⟨blank, found.start, found.signed, found.marked⟩

/-- The sign of a numeral is found at its start. -/
theorem Word.sign_units (w : Word) : Numeral.sign w.units = (w.sign.isMinus, w.sign.units.length) := by
  have ends : ∀ u ∈ ([] : List CodeUnit).head?, CodeUnit.isBlank u = true := by
    intro u mem
    cases mem
  have signed := (w.found (List.forall_mem_nil _) ends).signed
  rw [List.append_nil] at signed
  exact signed

/-! ### Numerals are scanned, and nothing else -/

/-- A numeral within the limit of a width is scanned up to a blank, if its sign and its mark are found. -/
theorem Word.scanWide_of_found (w : Word) (found : FoundBy mark before w.sign w.mark lead (w.digits ++ rest))
    (ends : ∀ u ∈ rest.head?, CodeUnit.isBlank u = true) (le : w.size ≤ limit bits w.mark.radix w.sign.isMinus) :
    Numeral.scanWide bits mark (before ++ (w.sign.units ++ (lead ++ w.digits)) ++ rest) =
      .ok (w.valueIn bits, (before ++ (w.sign.units ++ (lead ++ w.digits))).length) := by
  -- a blank is no digit, and so the run ends with the numeral
  have noDigit : ∀ u ∈ rest.head?, isDigitIn w.mark.radix u = false := by
    intro u mem
    rw [← Bool.not_eq_true]
    intro digit
    exact absurd (lt_of_isBlank (ends u mem)) (Nat.not_lt.mpr (range_of_isDigitIn digit).1)
  have run := digitRun_append w.mark.radix_pos w.isDigit noDigit 0 le
  have parts : before ++ (w.sign.units ++ (lead ++ w.digits)) ++ rest =
      before ++ (w.sign.units ++ (lead ++ (w.digits ++ rest))) := by
    simp only [List.append_assoc]
  have count : w.digits.length ≠ 0 := by
    intro none
    exact w.digits_ne_nil (List.length_eq_zero_iff.mp none)
  rw [parts, found.scanWide, run]
  dsimp only
  rw [if_neg count]
  simp only [List.length_append, Nat.add_assoc]
  rfl

/-- A numeral within the limit of a width is scanned, between blanks. -/
theorem Word.scanWide (w : Word) (blank : ∀ u ∈ before, CodeUnit.isBlank u = true)
    (ends : ∀ u ∈ rest.head?, CodeUnit.isBlank u = true) (le : w.size ≤ limit bits w.mark.radix w.sign.isMinus) :
    scanWide bits radixMark (before ++ w.units ++ rest) = .ok (w.valueIn bits, (before ++ w.units).length) :=
  w.scanWide_of_found (w.found blank ends).foundBy ends le

/-- What is scanned behind a sign and a mark that were found are digits, within the limit of the width. -/
theorem FoundBy.exists_word {n : Int} {stop : Nat} (found : FoundBy mark before s m lead body)
    (h : Numeral.scanWide bits mark (before ++ (s.units ++ (lead ++ body))) = .ok (n, stop)) :
    ∃ (w : Word) (rest : List CodeUnit), w.sign = s ∧ w.mark = m ∧ body = w.digits ++ rest ∧
      stop = (before ++ (s.units ++ (lead ++ w.digits))).length ∧
      w.size ≤ limit bits w.mark.radix w.sign.isMinus ∧ w.valueIn bits = n := by
  rw [found.scanWide] at h
  cases run : digitRun m.radix (limit bits m.radix s.isMinus) 0 body with
  | error n =>
    rw [run] at h
    cases h
  | ok scanned =>
    obtain ⟨size, count⟩ := scanned
    rw [run] at h
    dsimp only at h
    obtain ⟨digits, rest, rfl, rfl, isDigit, rfl, le⟩ := digitRun_eq_ok (Nat.zero_le _) run
    split at h
    · cases h
    · rename_i some
      cases h
      -- a run without digits would have failed
      have ne : digits ≠ [] := by
        intro none
        exact some (List.length_eq_zero_iff.mpr none)
      refine ⟨⟨s, m, digits, ne, isDigit⟩, rest, rfl, rfl, rfl, ?_, le, rfl⟩
      simp only [List.length_append, Nat.add_assoc]

/-- What is scanned is a numeral within the limit of the width. -/
theorem scanWide_eq_ok {n : Int} {stop : Nat} (h : scanWide bits radixMark units = .ok (n, stop)) :
    ∃ (w : Word) (before rest : List CodeUnit), (∀ u ∈ before, CodeUnit.isBlank u = true) ∧
      units = before ++ w.units ++ rest ∧ stop = (before ++ w.units).length ∧
      w.size ≤ limit bits w.mark.radix w.sign.isMinus ∧ w.valueIn bits = n := by
  obtain ⟨before, s, m, body, rfl, found⟩ := exists_found units
  obtain ⟨w, rest, rfl, rfl, rfl, stop, le, value⟩ := found.foundBy.exists_word h
  exact ⟨w, before, rest, found.blank, by simp only [Word.units, List.append_assoc], stop, le, value⟩

/-- **Whole units are read as the numerals that are in them**, and that are within the limit of the width. -/
theorem whole?_scanWide_eq_some_iff {n : Int} :
    whole? units (scanWide bits radixMark units) = some n ↔
      ∃ w : Word, w.IsIn units ∧ w.size ≤ limit bits w.mark.radix w.sign.isMinus ∧ w.valueIn bits = n := by
  constructor
  · intro h
    cases scanned : scanWide bits radixMark units with
    | error k =>
      rw [scanned] at h
      cases h
    | ok found =>
      obtain ⟨value, stop⟩ := found
      obtain ⟨w, before, rest, blank, rfl, rfl, le, rfl⟩ := scanWide_eq_ok scanned
      rw [scanned, whole?, List.drop_left] at h
      split at h
      · rename_i after
        cases h
        exact ⟨w, ⟨before, rest, blank, List.all_eq_true.mp after, rfl⟩, le, rfl⟩
      · cases h
  · rintro ⟨w, ⟨before, after, blank, blank', rfl⟩, le, rfl⟩
    -- conversely, the blanks behind the numeral end the run
    have ends : ∀ u ∈ after.head?, CodeUnit.isBlank u = true := by
      intro u mem
      exact blank' u (List.mem_of_mem_head? mem)
    rw [w.scanWide blank ends le, whole?, List.drop_left, if_pos (List.all_eq_true.mpr blank')]

end Numeral

end SystemUnit
