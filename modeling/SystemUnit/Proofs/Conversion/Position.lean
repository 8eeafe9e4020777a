import SystemUnit.Proofs.Numeral.RealForm

namespace SystemUnit

/-!
# The index at which reading fails

Reading with a position answers with an index: zero for a text that is accepted, or else that of the unit at which
the scan stops, or the one behind the text.  What is before this unit is the start of an accepted text.  For integers
nothing that goes up to the unit is, and so it is the first unit that is wrong.  For reals it may be: the scan stops
before a sign or a point without digits and before the letter of an exponent without digits, and these may be the
start of a numeral.

* `Accepted`, `Viable` — the texts that are accepted, and what they start with;
* `Reports` — an index of the text, or the one behind it, that only viable units are before;
* `ScansBy` — the value and the index are told by a scan and the offset at which it stops;
* `ScansBy.reports`, `ScansBy.not_viable` — it is reported, and what goes up to it is not viable if the scan stops
  there whatever comes behind it;
* `valInt_reports_first_wrong`, `valReal_reports_stop` — the index for integers and for reals;
* `valReal_reports_viable` — a sign that the scan of a real stops at, and the scan of an integer does not.
-/

/-- A text is accepted if the index is zero. -/
def Accepted {α : Type} (val : Text → α × Whole .integer) (t : Text) : Prop := (val t).2.toInt = 0

instance {α : Type} (val : Text → α × Whole .integer) (t : Text) : Decidable (Accepted val t) :=
  inferInstanceAs (Decidable (_ = _))

/-- Units that an accepted text starts with. -/
def Viable {α : Type} (val : Text → α × Whole .integer) (p : List CodeUnit) : Prop :=
  ∃ t, Accepted val t ∧ p <+: t.units

/-- The index behind `n` units is reported: it lies in the text or behind its end, and what is before it is
    viable. -/
structure Reports {α : Type} (val : Text → α × Whole .integer) (s : Text) (n : Nat) : Prop where
  index : (val s).2.toInt = n + 1
  inside : n ≤ s.size
  before : Viable val (s.units.take n)

open Numeral

/-- The value and the index are those of a scan. -/
structure ScansBy {α β : Type} (val : Text → α × Whole .integer) (scan : List CodeUnit → Except Nat (β × Nat))
    (give : Option β → α) : Prop where
  answer : ∀ s, val s =
    (give (valued s.units (scan s.units)).1, .ofNat .integer (valued s.units (scan s.units)).2)
  stop_le : ∀ units, stop (scan units) ≤ units.length

/-! ### The index of a scan -/

section

variable {α β : Type} {val : Text → α × Whole .integer} {scan : List CodeUnit → Except Nat (β × Nat)}
  {give : Option β → α} {scanned : Except Nat (β × Nat)} {s : Text} {units p : List CodeUnit} {u : CodeUnit} {v : β}

/-- A scan that reaches the end gives its value. -/
theorem valued_of_eq (h : scanned = .ok (v, units.length)) : valued units scanned = (some v, 0) := by
  rw [h]
  exact if_pos rfl

/-- Another scan gives the index of the unit at which it stops. -/
theorem valued_of_ne (h : ∀ v, scanned ≠ .ok (v, units.length)) : valued units scanned = (none, stop scanned + 1) := by
  cases scanned with
  | error n => rfl
  | ok found =>
    obtain ⟨v, n⟩ := found
    refine if_neg ?_
    rintro rfl
    exact h v rfl

/-- A unit, with what is before it and behind it. -/
theorem exists_split {n : Nat} (h : units[n]? = some u) :
    ∃ x, units = units.take n ++ u :: x ∧ (units.take n).length = n ∧ units.take (n + 1) = units.take n ++ [u] := by
  obtain ⟨lt, rfl⟩ := List.getElem?_eq_some_iff.mp h
  refine ⟨units.drop (n + 1), ?_, List.length_take_of_le (Nat.le_of_lt lt), (List.take_append_getElem lt).symm⟩
  rw [← List.drop_eq_getElem_cons lt, List.take_append_drop]

namespace ScansBy

variable (scans : ScansBy val scan give)

include scans

/-- A text that is scanned whole gives its value and no index. -/
theorem answer_of_eq (h : scan s.units = .ok (v, s.units.length)) : val s = (give (some v), .ofNat .integer 0) := by
  rw [scans.answer, valued_of_eq h]

/-- Any other text gives no value, and the index behind where the scan stops. -/
theorem answer_of_ne (h : ∀ v, scan s.units ≠ .ok (v, s.units.length)) :
    val s = (give none, .ofNat .integer (stop (scan s.units) + 1)) := by
  rw [scans.answer, valued_of_ne h]

/-- A text that is scanned whole is accepted. -/
theorem accepted_of_eq (h : scan s.units = .ok (v, s.units.length)) : Accepted val s := by
  rw [Accepted, scans.answer_of_eq h]
  rfl

/-- The index is exact as long as there is an integer for it. -/
theorem index_of_ne (h : ∀ v, scan s.units ≠ .ok (v, s.units.length))
    (lt : (stop (scan s.units) : Int) < WholeKind.integer.greatest) :
    (val s).2.toInt = stop (scan s.units) + 1 := by
  rw [scans.answer_of_ne h, Whole.toInt_ofNat (by push_cast; omega)]
  push_cast
  rfl

/-- A text with an index for each unit and one more is accepted if the scan reaches its end. -/
theorem accepted_iff (short : (s.size : Int) < WholeKind.integer.greatest) :
    Accepted val s ↔ ∃ v, scan s.units = .ok (v, s.units.length) := by
  constructor
  · intro accepted
    by_contra none
    -- the index is an integer as it is, since the text is no longer than one can tell
    have le : stop (scan s.units) ≤ s.size := scans.stop_le s.units
    rw [not_exists] at none
    rw [Accepted, scans.index_of_ne none (by omega)] at accepted
    omega
  · rintro ⟨v, h⟩
    exact scans.accepted_of_eq h

/-- What goes up to a unit is not viable if the scan stops there whatever comes behind it. -/
theorem not_viable (short : (p.length : Int) < WholeKind.integer.greatest)
    (stops : ∀ y, stop (scan (p ++ u :: y)) = p.length) : ¬ Viable val (p ++ [u]) := by
  rintro ⟨⟨t⟩, accepted, y, start⟩
  rw [List.append_assoc] at start
  obtain rfl : p ++ u :: y = t := start
  have none : ∀ v, scan (p ++ u :: y) ≠ .ok (v, (p ++ u :: y).length) := by
    intro v whole
    have here := stops y
    rw [whole, stop, List.length_append, List.length_cons] at here
    omega
  -- the index is that of the unit, and no multiple of the count that is cut to zero
  have index := scans.index_of_ne (s := ⟨p ++ u :: y⟩) none (by rw [stops y]; exact short)
  rw [Accepted, index] at accepted
  omega

/-- **A text that is not accepted has no value, and the index of the unit at which the scan stops**, if what is before
    it is viable. -/
theorem reports (short : (s.size : Int) < WholeKind.integer.greatest) (fails : ¬ Accepted val s)
    (before : Viable val (s.units.take (stop (scan s.units)))) :
    (val s).1 = give none ∧ Reports val s (stop (scan s.units)) := by
  have le : stop (scan s.units) ≤ s.size := scans.stop_le s.units
  rw [scans.accepted_iff short, not_exists] at fails
  refine ⟨?_, scans.index_of_ne fails (by omega), le, before⟩
  rw [scans.answer_of_ne fails]

end ScansBy

end

variable {s : Text} {p x : List CodeUnit} {u : CodeUnit}

/-! ### Integers -/

theorem valInt_scansBy : ScansBy valInt (scan 32 radixMark) (fun n => .ofInt .integer (n.getD 0)) where
  answer _ := rfl
  stop_le units := by
    rw [scan_integer]
    exact stop_scanWide_le 32 units

/-- A numeral ends with a digit. -/
theorem Numeral.Word.getLast?_units (w : Word) (before : List CodeUnit) :
    ∀ u ∈ (before ++ w.units).getLast?, CodeUnit.isBlank u = false := by
  intro u mem
  have last : (before ++ w.units).getLast? = w.digits.getLast? := by
    rw [Word.units, ← List.append_assoc, ← List.append_assoc]
    exact List.getLast?_append_of_ne_nil _ w.digits_ne_nil
  rw [last] at mem
  exact (ne_of_isDigitIn (w.isDigit u (List.mem_of_getLast? mem))).2.2.2

/-- Where the last unit is no blank, blanks cannot be all that is left. -/
theorem drop_eq_nil_of_all_isBlank {units : List CodeUnit} {n : Nat}
    (blank : (units.drop n).all CodeUnit.isBlank = true)
    (last : ∀ u ∈ units.getLast?, CodeUnit.isBlank u = false) : units.drop n = [] := by
  by_contra some
  -- what is left would end with the last unit of the text, which is no blank
  have behind : units.getLast? = (units.drop n).getLast? := by
    conv_lhs => rw [← List.take_append_drop n units]
    exact List.getLast?_append_of_ne_nil _ some
  have mem := List.getLast?_eq_some_getLast some
  have noBlank := last _ (behind.trans mem)
  rw [List.all_eq_true.mp blank _ (List.mem_of_getLast? mem)] at noBlank
  cases noBlank

/-- A scan that reaches the end is that of a text without blanks behind the numeral. -/
theorem scan_integer_whole {n : Int} (h : scan 32 radixMark s.units = .ok (n, s.units.length)) :
    Reading.integer.strict s = .ok (valInt s).1 ∧ ∀ u ∈ s.units.getLast?, CodeUnit.isBlank u = false := by
  constructor
  · have read : whole? s.units (scan 32 radixMark s.units) = some n := by
      rw [h, whole?, List.drop_length]
      rfl
    rw [valInt_scansBy.answer_of_eq h, Reading.strict_eq_ok_iff]
    exact congrArg (Option.map (Whole.ofInt .integer)) read
  · rw [scan_integer] at h
    obtain ⟨w, before, rest, -, units, length, -, -⟩ := scanWide_eq_ok h
    -- the numeral takes up the whole text, so that it ends with its last digit
    have none : rest = [] := by
      have total := congrArg List.length units
      rw [List.length_append, ← length, eq_comm, Nat.add_eq_left] at total
      exact List.length_eq_zero_iff.mp total
    rw [units, none, List.append_nil]
    exact w.getLast?_units before

/-- A text is accepted as an integer if it is read as one and does not end with a blank. -/
theorem valInt_accepted_iff (short : (s.size : Int) < WholeKind.integer.greatest) :
    Accepted valInt s ↔
      (∃ v, Reading.integer.strict s = .ok v) ∧ ∀ u ∈ s.units.getLast?, CodeUnit.isBlank u = false := by
  rw [valInt_scansBy.accepted_iff short]
  constructor
  · rintro ⟨n, scanned⟩
    obtain ⟨read, last⟩ := scan_integer_whole scanned
    exact ⟨⟨_, read⟩, last⟩
  · rintro ⟨⟨v, ok⟩, last⟩
    obtain ⟨n, whole, -⟩ := Option.map_eq_some_iff.mp (Reading.strict_eq_ok_iff.mp ok)
    have le := valInt_scansBy.stop_le s.units
    cases scanned : scan 32 radixMark s.units with
    | error k =>
      rw [scanned] at whole
      cases whole
    | ok found =>
      obtain ⟨m, stop⟩ := found
      rw [scanned, whole?] at whole
      rw [scanned] at le
      split at whole
      · rename_i blank
        -- only blanks may come behind the numeral, and the text does not end with one
        have ge : s.units.length ≤ stop := List.drop_eq_nil_iff.mp (drop_eq_nil_of_all_isBlank blank last)
        exact ⟨m, by rw [Nat.le_antisymm ge le]⟩
      · cases whole

/-- What a numeral within the limit starts with is viable. -/
theorem viable_valInt {before : List CodeUnit} {w : Word} (blank : ∀ u ∈ before, CodeUnit.isBlank u = true)
    (le : w.size ≤ limit 32 w.mark.radix w.sign.isMinus) (start : p <+: before ++ w.units) : Viable valInt p := by
  have ends : ∀ u ∈ ([] : List CodeUnit).head?, CodeUnit.isBlank u = true := nofun
  have scanned := w.scanWide blank ends le
  rw [List.append_nil, ← scan_integer] at scanned
  exact ⟨⟨before ++ w.units⟩, valInt_scansBy.accepted_of_eq scanned, start⟩

/-- What goes up to the unit at which a scan stops is not viable. -/
theorem not_viable_valInt (short : (p.length : Int) < WholeKind.integer.greatest)
    (h : stop (scan 32 radixMark (p ++ u :: x)) = p.length) : ¬ Viable valInt (p ++ [u]) := by
  rw [scan_integer] at h
  apply valInt_scansBy.not_viable short
  intro y
  rw [scan_integer, scanWide_congr y h, h]

/-- **The index for integers is that of the first unit that is wrong.**  It is zero for the texts that are read and do
    not end with a blank, and these have the same value; and in another text the units before it are the start of an
    accepted text, and with the unit itself they are not. -/
theorem valInt_reports_first_wrong (short : (s.size : Int) < WholeKind.integer.greatest) :
    (Accepted valInt s ↔
      (∃ v, Reading.integer.strict s = .ok v) ∧ ∀ u ∈ s.units.getLast?, CodeUnit.isBlank u = false) ∧
    (Accepted valInt s → Reading.integer.strict s = .ok (valInt s).1) ∧
    (¬ Accepted valInt s → (valInt s).1.toInt = 0 ∧
      ∃ n, Reports valInt s n ∧ (n < s.size → ¬ Viable valInt (s.units.take (n + 1)))) := by
  refine ⟨valInt_accepted_iff short, ?_, ?_⟩
  · intro accepted
    obtain ⟨n, scanned⟩ := (valInt_scansBy.accepted_iff short).mp accepted
    exact (scan_integer_whole scanned).1
  · intro fails
    obtain ⟨w, before, blank, le, start⟩ := exists_word_of_scanWide 32 s.units
    rw [← scan_integer] at start
    obtain ⟨value, reports⟩ := valInt_scansBy.reports short fails (viable_valInt blank le start)
    refine ⟨?_, stop (scan 32 radixMark s.units), reports, ?_⟩
    · rw [value]
      rfl
    · intro lt
      -- the unit at the stop is the first that no numeral goes on with
      obtain ⟨u, mem⟩ : ∃ u, s.units[stop (scan 32 radixMark s.units)]? = some u := ⟨_, List.getElem?_eq_getElem lt⟩
      obtain ⟨x, units, length, take⟩ := exists_split mem
      rw [take]
      refine not_viable_valInt (x := x) (by rw [length]; omega) ?_
      rw [← units, length]

/-- The third unit is wrong, as a decimal numeral has no letters. -/
theorem valInt_reports_letter :
    let s := Text.ofString "12ab"
    (s.size : Int) < WholeKind.integer.greatest ∧ ¬ Accepted valInt s ∧ (valInt s).2.toInt = 3 ∧
      Viable valInt (s.units.take 2) ∧ ¬ Viable valInt (s.units.take 3) := by
  have short : ((Text.ofString "12ab").size : Int) < WholeKind.integer.greatest := by decide +kernel
  have index : (valInt (.ofString "12ab")).2.toInt = 3 := by decide +kernel
  have fails : ¬ Accepted valInt (.ofString "12ab") := by
    rw [Accepted, index]
    decide
  obtain ⟨-, n, reports, wrong⟩ := (valInt_reports_first_wrong short).2.2 fails
  obtain rfl : n = 2 := by
    have same := reports.index
    rw [index] at same
    omega
  exact ⟨short, fails, index, reports.before, wrong (by decide +kernel)⟩

/-! ### Reals -/

theorem valReal_scansBy : ScansBy valReal scanReal (·.getD (.zero .double)) where
  answer s := by
    unfold valReal
    cases valued s.units (scanReal s.units)
    rfl
  stop_le := stop_scanReal_le

/-- What a real numeral starts with is viable. -/
theorem viable_valReal (h : StartsReal p) : Viable valReal p := by
  obtain ⟨w, before, some, blank, start⟩ := h
  have scanned := w.scanReal some blank w.ends_nil
  rw [List.append_nil] at scanned
  exact ⟨⟨before ++ w.units⟩, valReal_scansBy.accepted_of_eq scanned, start⟩

/-- What goes up to the unit at which a scan stops is viable only if a numeral may go on with the unit. -/
theorem viable_valReal_iff (short : (p.length : Int) < WholeKind.integer.greatest)
    (h : stop (scanReal (p ++ u :: x)) = p.length) : Viable valReal (p ++ [u]) ↔ Unfinished p u := by
  constructor
  · intro viable
    by_contra finished
    exact valReal_scansBy.not_viable short (fun y => stop_scanReal_congr y finished h) viable
  · intro unfinished
    exact viable_valReal unfinished.startsReal

/-- **The index for reals is that of the unit at which the scan stops.**  The units before it are the start of an
    accepted text, and with the unit itself they are only if a numeral may go on with it. -/
theorem valReal_reports_stop (short : (s.size : Int) < WholeKind.integer.greatest) (fails : ¬ Accepted valReal s) :
    (valReal s).1 = .zero .double ∧ ∃ n, Reports valReal s n ∧
      ∀ u ∈ s.units[n]?, (Viable valReal (s.units.take (n + 1)) ↔ Unfinished (s.units.take n) u) := by
  obtain ⟨value, reports⟩ := valReal_scansBy.reports short fails (viable_valReal (startsReal_take s.units))
  refine ⟨value, stop (scanReal s.units), reports, ?_⟩
  intro u mem
  obtain ⟨x, units, length, take⟩ := exists_split mem
  -- the units before the stop begin a numeral; whether they do with one more depends on that one
  have le := reports.inside
  rw [take]
  refine viable_valReal_iff (x := x) (by rw [length]; omega) ?_
  rw [← units, length]

/-- A letter that no numeral goes on with. -/
theorem valReal_reports_letter :
    let s := Text.ofString "2.5z"
    (s.size : Int) < WholeKind.integer.greatest ∧ ¬ Accepted valReal s ∧ (valReal s).2.toInt = 4 ∧
      Viable valReal (s.units.take 3) ∧ ¬ Viable valReal (s.units.take 4) := by
  have short : ((Text.ofString "2.5z").size : Int) < WholeKind.integer.greatest := by decide +kernel
  have index : (valReal (.ofString "2.5z")).2.toInt = 4 := by decide +kernel
  have fails : ¬ Accepted valReal (.ofString "2.5z") := by
    rw [Accepted, index]
    decide
  obtain ⟨-, n, reports, wrong⟩ := valReal_reports_stop short fails
  obtain rfl : n = 3 := by
    have same := reports.index
    rw [index] at same
    omega
  refine ⟨short, fails, index, reports.before, mt (wrong 0x7A (by decide +kernel)).mp ?_⟩
  rintro (⟨-, sign⟩ | ⟨letter, -⟩)
  · revert sign
    decide
  · revert letter
    decide

/-- A sign before a letter has the index of the sign for a real, though a sign is the start of a numeral, and for an
    integer it has that of the letter.  An exponent without digits has the index of its own letter, which is the start
    of an exponent. -/
theorem valReal_reports_viable :
    let s := Text.ofString "-x"
    let t := Text.ofString "1ex"
    (valReal s = (.zero .double, ⟨1⟩) ∧ (valInt s).2 = ⟨2⟩ ∧
      ¬ ∃ n, Reports valReal s n ∧ (n < s.size → ¬ Viable valReal (s.units.take (n + 1)))) ∧
    (valReal t = (.zero .double, ⟨2⟩) ∧
      ¬ ∃ n, Reports valReal t n ∧ (n < t.size → ¬ Viable valReal (t.units.take (n + 1)))) := by
  -- a digit behind the sign, or behind the letter, would make a numeral of it
  have sign : Viable valReal ((Text.ofString "-x").units.take 1) :=
    ⟨.ofString "-1", by decide +kernel, by decide +kernel⟩
  have letter : Viable valReal ((Text.ofString "1ex").units.take 2) :=
    ⟨.ofString "1e0", by decide +kernel, by decide +kernel⟩
  refine ⟨⟨by decide +kernel, by decide +kernel, ?_⟩, by decide +kernel, ?_⟩
  · rintro ⟨n, reports, wrong⟩
    have index : (valReal (.ofString "-x")).2.toInt = 1 := by decide +kernel
    obtain rfl : n = 0 := by
      have same := reports.index
      omega
    exact wrong (by decide +kernel) sign
  · rintro ⟨n, reports, wrong⟩
    have index : (valReal (.ofString "1ex")).2.toInt = 2 := by decide +kernel
    obtain rfl : n = 1 := by
      have same := reports.index
      omega
    exact wrong (by decide +kernel) letter

end SystemUnit
