import SystemUnit.Proofs.File.Integers

namespace SystemUnit

/-!
# Integers of files and integers of texts

A word of a text file and a text on its own are scanned alike, and part only in what becomes of a number that the kind
has no room for.  A file wants the number itself, and a text has it cut to the width if 64 bits hold it.  The only such
number is the least one negated, and so the two differ at 32 bits, where the cut has work to do, and not at 64.

* `Numeral.range_iff_of_scanned` — the numbers that are scanned for a kind and are numbers of it;
* `Reading.whole_integer_iff`, `Reading.whole_int64` — the two ways to read at 32 and at 64 bits;
* `TextFile.ReadAs`, `TextFile.read_as_texts` — a word of a file is read as a text, up to the least number negated;
* `TextFile.read_refuses_negated_least` — the word that only the text is read from.
-/

open FileM

variable {k : WholeKind} {units : List CodeUnit} {t : Text}

/-! ### Two ways to narrow a number -/

/-- A number that is scanned for a signed kind is one of the kind, unless it is the least number negated. -/
theorem Numeral.range_iff_of_scanned {n : Int} (signed : k.isSigned = true)
    (scanned : whole? units (Numeral.scanWide k.width Numeral.radixMark units) = some n) :
    k.least ≤ n ∧ n ≤ k.greatest + 1 ∧
      (n ≤ k.greatest ↔ ¬ ∃ w : Numeral.Word, w.IsIn units ∧ w.NegatesLeast k) := by
  -- each numeral that is scanned fits the kind, and so tells the range of its number
  have range : ∀ w : Numeral.Word, w.IsIn units →
      w.size ≤ Numeral.limit k.width w.mark.radix w.sign.isMinus → w.valueIn k.width = n →
      k.least ≤ n ∧ n ≤ k.greatest + 1 ∧ (n ≤ k.greatest ↔ ¬ w.NegatesLeast k) := by
    rintro w isIn le rfl
    exact w.valueIn_range signed ((Numeral.Word.le_limit_iff_fits signed).mp le)
  obtain ⟨w, isIn, le, value⟩ := Numeral.whole?_scanWide_eq_some_iff.mp scanned
  obtain ⟨least, greatest, room⟩ := range w isIn le value
  refine ⟨least, greatest, ?_, ?_⟩
  · -- another numeral in the same units has the same number
    rintro inside ⟨w', isIn', negates⟩
    have fits' : w'.Fits k := by
      rw [Numeral.Word.Fits, if_neg negates.1, negates.2.2]
      have := k.count_pos
      omega
    have le' := (Numeral.Word.le_limit_iff_fits signed).mpr fits'
    have scanned' := Numeral.whole?_scanWide_eq_some_iff.mpr ⟨w', isIn', le', rfl⟩
    rw [scanned, Option.some.injEq] at scanned'
    exact (range w' isIn' le' scanned'.symm).2.2.mp inside negates
  · intro none
    exact room.mpr fun negates => none ⟨w, isIn, negates⟩

namespace Reading

/-- A numeral of a kind is read if its number is one of the kind. -/
theorem whole_eq_some_iff {v : Whole k} :
    (whole k).read? t = some v ↔ ∃ n, whole? t.units (Numeral.scanWide k.numeralWidth Numeral.radixMark t.units) =
      some n ∧ (k.least ≤ n ∧ n ≤ k.greatest) ∧ Whole.ofInt k n = v := by
  unfold whole
  dsimp only
  cases whole? t.units (Numeral.scanWide k.numeralWidth Numeral.radixMark t.units) with
  | none => simp
  | some n =>
    dsimp only
    split
    · rename_i inside
      simp [inside]
    · rename_i outside
      simp [outside]

/-- At 32 bits the number itself is read where the number that is cut is read, but for the least one negated. -/
theorem whole_integer_iff {v : Whole .integer} :
    (whole .integer).read? t = some v ↔
      integer.read? t = some v ∧ ¬ ∃ w : Numeral.Word, w.IsIn t.units ∧ w.NegatesLeast .integer := by
  -- numbers of the kind have a place in 64 bits, and the one behind the greatest has one, too
  have narrow : ∀ n, whole? t.units (Numeral.scanWide 32 Numeral.radixMark t.units) = some n →
      ((WholeKind.integer.least ≤ n ∧ n ≤ WholeKind.integer.greatest) ↔
        (WholeKind.int64.least ≤ n ∧ n ≤ WholeKind.int64.greatest) ∧
          ¬ ∃ w : Numeral.Word, w.IsIn t.units ∧ w.NegatesLeast .integer) := by
    intro n scanned
    obtain ⟨least, greatest, room⟩ := Numeral.range_iff_of_scanned (k := .integer) rfl scanned
    have place : WholeKind.int64.least ≤ n ∧ n ≤ WholeKind.int64.greatest :=
      ⟨Int.le_trans (by decide) least, Int.le_trans greatest (by decide)⟩
    rw [← room]
    exact ⟨fun inside => ⟨place, inside.2⟩, fun inside => ⟨least, inside.2⟩⟩
  -- a text is scanned in the same way and its number then cut
  have scan : integer.read? t = some v ↔
      ∃ n, (whole? t.units (Numeral.scanWide 32 Numeral.radixMark t.units) = some n ∧
        WholeKind.int64.least ≤ n ∧ n ≤ WholeKind.int64.greatest) ∧ Whole.ofInt .integer n = v := by
    show (whole? t.units (Numeral.scan 32 Numeral.radixMark t.units)).map (Whole.ofInt .integer) = some v ↔ _
    rw [Option.map_eq_some_iff]
    simp only [Numeral.whole?_scan_eq_some_iff]
  rw [whole_eq_some_iff, scan]
  constructor
  · rintro ⟨n, scanned, inside, cut⟩
    obtain ⟨place, room⟩ := (narrow n scanned).mp inside
    exact ⟨⟨n, ⟨scanned, place⟩, cut⟩, room⟩
  · rintro ⟨⟨n, ⟨scanned, place⟩, cut⟩, room⟩
    exact ⟨n, scanned, (narrow n scanned).mpr ⟨place, room⟩, cut⟩

/-- At 64 bits there is nothing to cut. -/
theorem whole_int64 : (whole .int64).read? t = int64.read? t := by
  apply Option.ext
  intro v
  show _ ↔ (whole? t.units (Numeral.scan 64 Numeral.radixMark t.units)).map (Whole.ofInt .int64) = some v
  rw [whole_eq_some_iff, Option.map_eq_some_iff]
  simp only [Numeral.whole?_scan_eq_some_iff, and_assoc]
  rfl

end Reading

/-! ### Words of a file as texts -/

namespace TextFile

variable {s : TextFile × FileContext} {left : List UInt8} {chars : List Char}

/-- A word of a file is read as a text is: the file gives the value that the text has, and nothing and the code of an
    error if the text has none or `refused` holds. -/
structure ReadAs (r : Reading (Whole k)) (t : Text) (refused : Prop)
    (s : Option Argument × TextFile × FileContext) : Prop where
  value_iff : ∀ v : Whole k, s.1 = some (.scalar (.whole v)) ↔ r.strict t = .ok v ∧ ¬ refused
  success : (∃ v, r.strict t = .ok v) → ¬ refused → s.2.2.result = .success
  error : (¬ ∃ v, r.strict t = .ok v) ∨ refused → s.1 = none ∧ s.2.2.result = .ioError

/-- Where a file and a text agree on a word up to some refusals, the operation on the file does. -/
theorem Unread.readAs {r : Reading (Whole k)} {refused : Prop} (unread : Unread left s)
    (word : ByteStream.wordBytes left = Utf8.encode chars)
    (agree : ∀ v, (Reading.whole k).read? (.ofChars chars) = some v ↔ r.read? (.ofChars chars) = some v ∧ ¬ refused) :
    ReadAs r (.ofChars chars) refused (perform (TextFile.read (.whole k)) s) := by
  obtain ⟨f', performed⟩ := unread.perform_read_whole k word
  rw [performed]
  refine ⟨?_, ?_, ?_⟩
  · intro v
    rw [Reading.strict_eq_ok_iff, ← agree v, Option.map_eq_some_iff]
    constructor
    · rintro ⟨a, found, same⟩
      cases same
      exact found
    · intro found
      exact ⟨v, found, rfl⟩
  · rintro ⟨v, ok⟩ accepted
    rw [(agree v).mpr ⟨Reading.strict_eq_ok_iff.mp ok, accepted⟩]
    rfl
  · intro bad
    have none : (Reading.whole k).read? (.ofChars chars) = none := by
      rw [Option.eq_none_iff_forall_ne_some]
      intro v found
      obtain ⟨some, accepted⟩ := (agree v).mp found
      exact bad.elim (fun noValue => noValue ⟨v, Reading.strict_eq_ok_iff.mpr some⟩) accepted
    rw [none]
    exact ⟨rfl, rfl⟩

/-- **A word of a text file is read as an integer exactly as the text of the word is**: at 64 bits without exception,
    and at 32 bits unless the word is a minus sign before the pattern of the least number.  The text of such a word
    has a value, and the file gives the code of an error. -/
theorem read_as_texts (unread : Unread left s) (word : ByteStream.wordBytes left = Utf8.encode chars) :
    ReadAs Reading.integer (.ofChars chars)
        (∃ w : Numeral.Word, w.units = (Text.ofChars chars).units ∧ w.NegatesLeast .integer)
        (perform (TextFile.read (.whole .integer)) s) ∧
      ReadAs Reading.int64 (.ofChars chars) False (perform (TextFile.read (.whole .int64)) s) := by
  have notBlank := ByteStream.notBlank_wordBytes left
  rw [word] at notBlank
  constructor
  · apply unread.readAs word
    intro v
    -- a word has no blanks around it, so that it is the numeral
    simp only [Reading.whole_integer_iff, Numeral.Word.isIn_iff (ByteStream.notBlank_units notBlank)]
  · apply unread.readAs word
    intro v
    rw [Reading.whole_int64]
    exact ⟨fun h => ⟨h, not_false⟩, And.left⟩

/-- A bit pattern of 64 bits behind blanks. -/
theorem read_as_texts_pattern :
    let written := Text.ofString "  $FFFFFFFFFFFFFFFE x"
    let t := Text.ofString "$FFFFFFFFFFFFFFFE"
    Unread written.toUtf8 (reopened written) ∧
      ByteStream.wordBytes written.toUtf8 = Utf8.encode "$FFFFFFFFFFFFFFFE".toList ∧
      Reading.int64.strict t = .ok ⟨-2⟩ ∧
      (perform (TextFile.read (.whole .int64)) (reopened written)).1 =
        some (.scalar (.whole (⟨-2⟩ : Whole .int64))) := by
  intro written t
  have unread := unread_reopened written
  have word : ByteStream.wordBytes written.toUtf8 = Utf8.encode "$FFFFFFFFFFFFFFFE".toList := by decide +kernel
  have value : Reading.int64.strict t = .ok ⟨-2⟩ := by decide +kernel
  exact ⟨unread, word, value, ((read_as_texts unread word).2.value_iff ⟨-2⟩).mpr ⟨value, not_false⟩⟩

/-- A minus sign before the pattern of the least number is read from a text, where the number that leaves the kind is
    cut, and not from a file. -/
theorem read_refuses_negated_least :
    let t := Text.ofString "-$80000000"
    let s := perform (TextFile.read (.whole .integer)) (reopened t)
    Unread t.toUtf8 (reopened t) ∧ ByteStream.wordBytes t.toUtf8 = Utf8.encode "-$80000000".toList ∧
      Reading.integer.strict t = .ok ⟨0x80000000⟩ ∧ s.1 = none ∧ s.2.2.result = .ioError ∧
      ¬ ∀ v : Whole .integer, s.1 = some (.scalar (.whole v)) ↔ Reading.integer.strict t = .ok v := by
  intro t s
  have unread := unread_reopened t
  have word : ByteStream.wordBytes t.toUtf8 = Utf8.encode "-$80000000".toList := by decide +kernel
  have value : Reading.integer.strict t = .ok ⟨0x80000000⟩ := by decide +kernel
  have outside : (Reading.whole .integer).read? (.ofChars "-$80000000".toList) = none := by decide +kernel
  have read : ReadAs Reading.integer (.ofChars "-$80000000".toList) True s := by
    apply unread.readAs word
    intro v
    rw [outside]
    simp
  obtain ⟨none, code⟩ := read.error (.inr trivial)
  refine ⟨unread, word, value, none, code, ?_⟩
  -- the text has a value that the file does not give
  intro agree
  have some := (agree ⟨0x80000000⟩).mpr value
  rw [none] at some
  cases some

end TextFile

end SystemUnit
