import SystemUnit.Proofs.Conversion.Integer
import SystemUnit.Proofs.File.Numbers

namespace SystemUnit

/-!
# Integers of a text file, told by their numerals

The next word of a text file is read as an integer of a kind if it is a numeral of one of its numbers.  A kind
without a sign has its numerals scanned for one more bit, so that all its numbers have a place; and so have bit
patterns of one more bit.  Behind a minus sign such a pattern comes down to a number of the kind again.

* `Numeral.Word.Names`, `Numeral.Word.WrapsTo` — the numerals of a number without a sign, and the others that are
  read as one;
* `Numeral.Word.unsigned_iff` — there are no more of them;
* `TextFile.WordRead` — a word that is read, told by its numerals;
* `TextFile.read_unsigned`, `TextFile.read_unsigned_takes_negative` — integers without a sign from any text file, and
  a negative one that is taken.
-/

open FileM

variable {k : WholeKind} {units : List CodeUnit}

namespace Numeral

namespace Word

variable {w : Word} {v : Whole k}

/-! ### Numbers without a sign -/

/-- A numeral of a number without a sign: its digits have the number, and a minus sign stands before zero only. -/
def Names (w : Word) (v : Whole k) : Prop := v.toNat = w.size ∧ (w.sign = .minus → w.size = 0)

/-- A minus sign and a bit pattern of one bit more than the kind has, above the pattern of the highest bit.  The
    number of the pattern is negative, and negated again it is one of the kind. -/
def WrapsTo (w : Word) (v : Whole k) : Prop :=
  w.mark ≠ .none ∧ w.sign = .minus ∧ w.size < 2 * k.count ∧ k.count < w.size ∧ v.toNat + w.size = 2 * k.count

/-- **The numerals that are read as a number without a sign** are those of the number, and those that wrap to it. -/
theorem unsigned_iff (unsigned : k.isSigned = false) :
    (w.size ≤ limit k.numeralWidth w.mark.radix w.sign.isMinus ∧ w.valueIn k.numeralWidth = v.toInt) ↔
      w.Names v ∨ w.WrapsTo v := by
  have lt := v.toNat_lt
  have width : k.numeralWidth = k.width + 1 := by
    rw [WholeKind.numeralWidth, unsigned]
    rfl
  have half : Nat.pow 2 (k.width + 1 - 1) = k.count := rfl
  have all : Nat.pow 2 (k.width + 1) = 2 * k.count := Nat.mul_comm _ _
  have minus : w.sign = .minus ↔ w.sign.isMinus = true := by rw [Sign.isMinus, decide_eq_true_eq]
  unfold Names WrapsTo
  rw [v.toInt_of_unsigned unsigned, width, minus]
  by_cases unmarked : w.mark = .none
  · rw [valueIn_of_unmarked unmarked, limit, if_pos (Mark.radix_eq_ten_iff.mpr unmarked), half, Word.signed]
    simp only [unmarked, ne_eq, not_true_eq_false, false_and, or_false]
    cases w.sign.isMinus with
    | true =>
      simp only [if_true, forall_const]
      omega
    | false =>
      simp only [Bool.false_eq_true, if_false, false_implies, and_true]
      omega
  · have marked := mt Mark.radix_eq_ten_iff.mp unmarked
    rw [limit, if_neg marked, valueIn, interpret, if_neg marked, all]
    simp only [unmarked, ne_eq, not_false_eq_true, true_and]
    by_cases fits : w.size < 2 * k.count
    · rw [bmod_of_lt fits]
      cases w.sign.isMinus with
      | true =>
        -- patterns up to the highest bit are not negative, and the other half comes back into the kind
        simp only [if_true, forall_const, true_and]
        split <;> omega
      | false =>
        simp only [Bool.false_eq_true, if_false, false_implies, and_true, false_and, or_false]
        split <;> omega
    · -- no bit pattern, and too great for the number
      omega

end Word

end Numeral

/-! ### Words of a text file -/

namespace ByteStream

variable {chars : List Char}

/-- A word has no blanks in it. -/
theorem notBlank_wordBytes (bytes : List UInt8) : ∀ b ∈ wordBytes bytes, isBlankByte b = false := by
  intro b mem
  have inside := List.all_eq_true.mp List.all_takeWhile b mem
  simpa using inside

/-- Where no byte is a blank no unit is. -/
theorem notBlank_units (notBlank : ∀ b ∈ Utf8.encode chars, isBlankByte b = false) :
    ∀ u ∈ (Text.ofChars chars).units, CodeUnit.isBlank u = false := by
  intro u mem
  rw [← Bool.not_eq_true]
  intro blank
  -- a blank unit is a character of one byte, which would be a blank
  obtain ⟨basic, b, bytes, blankByte⟩ := utf8EncodeChar_blank blank
  obtain ⟨x, mem_x, mem_u⟩ := List.mem_flatMap.mp mem
  rcases Text.ofChar_cases x with ⟨c, units, -, char⟩ | ⟨c, d, units, high, low, -⟩
  · rw [units, List.mem_singleton] at mem_u
    subst mem_u
    have mem_b : b ∈ Utf8.encode chars := by
      apply Utf8.mem_encode.mpr
      refine ⟨x, mem_x, ?_⟩
      rw [← char, bytes]
      exact List.mem_singleton_self b
    rw [notBlank b mem_b] at blankByte
    cases blankByte
  · -- neither unit of a pair is a blank
    rw [units, List.mem_cons, List.mem_singleton] at mem_u
    rcases mem_u with rfl | rfl
    · rw [high] at basic
      cases basic
    · rw [low, Bool.or_true] at basic
      cases basic

end ByteStream

namespace TextFile

variable {s : TextFile × FileContext} {left : List UInt8} {chars : List Char}

/-- What reading an integer from a word answers: the integers that numerals stand for, if the word is one of these
    numerals, and else nothing and the code of an error. -/
structure WordRead (word : List CodeUnit) (standsFor : Numeral.Word → Whole k → Prop)
    (s : Option Argument × TextFile × FileContext) : Prop where
  value_iff : ∀ v : Whole k, s.1 = some (.scalar (.whole v)) ↔ ∃ w : Numeral.Word, w.units = word ∧ standsFor w v
  success : s.1.isSome = true → s.2.2.result = .success
  error : (¬ ∃ (w : Numeral.Word) (v : Whole k), w.units = word ∧ standsFor w v) →
    s.1 = none ∧ s.2.2.result = .ioError

/-- The next word is read as the text that it is. -/
theorem Unread.perform_read_whole (k : WholeKind) (unread : Unread left s)
    (word : ByteStream.wordBytes left = Utf8.encode chars) :
    ∃ f', perform (TextFile.read (.whole k)) s =
      (((Reading.whole k).read? (.ofChars chars)).map (.scalar <| .whole ·), f',
        { s.2 with
          result := if ((Reading.whole k).read? (.ofChars chars)).isSome then .success else .ioError }) := by
  obtain ⟨f, c⟩ := s
  obtain ⟨f', performed, -⟩ := unread.read (ByteStream.takes_item_whole k)
  have answer : TextItem.ofWord? (.ofChars (Utf8.decodeMarked (ByteStream.wordBytes left))) (.whole k) =
      ((Reading.whole k).read? (.ofChars chars)).map (.scalar <| .whole ·) := by
    rw [word, Utf8.decodeMarked_encode]
    rfl
  rw [answer, Option.isSome_map] at performed
  exact ⟨f', performed⟩

/-- The next word is read as an integer of a kind, told by the numerals of the kind. -/
theorem Unread.read_whole {standsFor : Numeral.Word → Whole k → Prop} (unread : Unread left s)
    (word : ByteStream.wordBytes left = Utf8.encode chars)
    (numerals : ∀ w v, (w.size ≤ Numeral.limit k.numeralWidth w.mark.radix w.sign.isMinus ∧
      w.valueIn k.numeralWidth = v.toInt) ↔ standsFor w v) :
    WordRead (Text.ofChars chars).units standsFor (perform (TextFile.read (.whole k)) s) := by
  obtain ⟨f', performed⟩ := unread.perform_read_whole k word
  have notBlank := ByteStream.notBlank_wordBytes left
  rw [word] at notBlank
  have value : ∀ v : Whole k, (Reading.whole k).read? (.ofChars chars) = some v ↔
      ∃ w : Numeral.Word, w.units = (Text.ofChars chars).units ∧ standsFor w v := by
    intro v
    simp only [Reading.whole_read?_eq_some_iff, Numeral.Word.isIn_iff (ByteStream.notBlank_units notBlank), numerals]
  rw [performed]
  cases found : (Reading.whole k).read? (.ofChars chars) with
  | none =>
    rw [found] at value
    refine ⟨?_, ?_, ?_⟩
    · intro v
      rw [← value v]
      simp
    · intro h
      cases h
    · intro _
      exact ⟨rfl, rfl⟩
  | some a =>
    rw [found] at value
    refine ⟨?_, ?_, ?_⟩
    · intro v
      rw [← value v]
      constructor
      · intro h
        cases h
        rfl
      · intro h
        cases h
        rfl
    · intro _
      rfl
    · intro none
      obtain ⟨w, units, stands⟩ := (value a).mp rfl
      exact absurd ⟨w, a, units, stands⟩ none

/-- **A word is read as an integer without a sign** if it is a numeral of the integer, or one that wraps to it; and
    nothing else is. -/
theorem read_unsigned (unsigned : k.isSigned = false) (unread : Unread left s)
    (word : ByteStream.wordBytes left = Utf8.encode chars) :
    WordRead (Text.ofChars chars).units (fun (w : Numeral.Word) (v : Whole k) => w.Names v ∨ w.WrapsTo v)
      (perform (read (.whole k)) s) :=
  unread.read_whole word fun _ _ => Numeral.Word.unsigned_iff unsigned

/-- A text file that a text has been written to, and that is opened again. -/
def reopened (written : Text) : TextFile × FileContext :=
  after (({ name := some (.singleton 0x61) } : TextFile), ({ } : FileContext))
    ([Operation.create, .write (.text written), .close, .reset].map Operation.act)

/-- All that was written is still to be read. -/
theorem unread_reopened (written : Text) : Unread written.toUtf8 (reopened written) := by
  have creatable : Creatable { name := some (.singleton 0x61) } { } (.singleton 0x61) 5 _ :=
    ⟨rfl, ⟨.initial, rfl, rfl⟩, rfl, rfl⟩
  have writes : ∀ op ∈ [Operation.write (.text written)], op.parts?.isSome = true := by simp [Operation.parts?]
  have bytes : [Operation.write (.text written)].flatMap Operation.written = written.codePoints := by
    rw [List.flatMap_singleton]
    exact List.flatMap_singleton' _
  have unread := (unread_of_written creatable writes).2.2
  rw [bytes] at unread
  exact unread

/-- A byte in base sixteen, with a sign and with blanks around it. -/
theorem read_unsigned_byte :
    let written := Text.ofString " +$fF "
    WholeKind.byte.isSigned = false ∧ Unread written.toUtf8 (reopened written) ∧
      ByteStream.wordBytes written.toUtf8 = Utf8.encode "+$fF".toList ∧
      WordRead (Text.ofString "+$fF").units (fun (w : Numeral.Word) (v : Whole .byte) => w.Names v ∨ w.WrapsTo v)
        (perform (TextFile.read (.whole .byte)) (reopened written)) := by
  intro written
  have word : ByteStream.wordBytes written.toUtf8 = Utf8.encode "+$fF".toList := by decide
  exact ⟨rfl, unread_reopened written, word, read_unsigned rfl (unread_reopened written) word⟩

/-- A negative number is taken for a byte, though it is the numeral of none. -/
theorem read_unsigned_takes_negative :
    let word := Text.ofString "-$1FF"
    let answer := perform (TextFile.read (.whole .byte)) (reopened word)
    answer.1 = some (.scalar (.whole (⟨1⟩ : Whole .byte))) ∧ answer.2.2.result = .success ∧
      ¬ WordRead word.units (fun (w : Numeral.Word) (v : Whole .byte) => w.Names v) answer := by
  intro word answer
  have taken : WordRead word.units (fun (w : Numeral.Word) (v : Whole .byte) => w.Names v ∨ w.WrapsTo v) answer :=
    (unread_reopened word).read_whole (by decide) fun _ _ => Numeral.Word.unsigned_iff rfl
  -- 511 is one less than twice the count of the kind, and so wraps to 1
  let w : Numeral.Word := ⟨.minus, .dollar, (Text.ofString "1FF").units, by decide, List.all_eq_true.mp rfl⟩
  have wraps : w.WrapsTo (⟨1⟩ : Whole .byte) := ⟨by decide, rfl, by decide, by decide, by decide⟩
  have value : answer.1 = some (.scalar (.whole (⟨1⟩ : Whole .byte))) :=
    (taken.value_iff ⟨1⟩).mpr ⟨w, rfl, .inr wraps⟩
  refine ⟨value, taken.success (by rw [value]; rfl), ?_⟩
  intro read
  -- a numeral of the number 1 has no minus sign, and the word has one
  obtain ⟨w, units, number, zero⟩ := (read.value_iff ⟨1⟩).mp value
  have sign := w.sign_units
  rw [units] at sign
  have minus : w.sign.isMinus = true := (congrArg Prod.fst sign).symm
  rw [zero (of_decide_eq_true minus)] at number
  exact absurd number (by decide)

end TextFile

end SystemUnit
