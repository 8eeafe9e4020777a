import SystemUnit.Conversion.Reading
import SystemUnit.Proofs.Conversion.Integer
import SystemUnit.Proofs.Floating.Nearest
import SystemUnit.Proofs.Numeral.RealForm

namespace SystemUnit

/-!
# Reals from texts

A text is read as a real if it is a real numeral with blanks around it, and the value is the number of 64 bits nearest
to the numeral.  Infinity and not-a-number have no numerals, and digits are those of ASCII; a blank does not stand in a
numeral, and the letter of an exponent not without digits.

* `Numeral.RealForm.IsIn`, `Numeral.RealForm.size` — units that are a numeral with blanks around it, and its size;
* `Numeral.whole?_scanReal_eq_some_iff` — the numerals that units are read as;
* `Numeral.HasForeignUnit`, `Numeral.HasInnerBlank`, `Numeral.HasBareExponent` — what no numeral has;
* `Reading.real_reads` — the texts that are read as a real, the value, and the texts that are refused.
-/

namespace Numeral

variable {w : RealForm} {u : CodeUnit} {units rest : List CodeUnit} {x : Floating .double}

/-! ### Numerals with blanks around them -/

namespace RealForm

/-- Units that are a form with blanks before and behind it, if any. -/
def IsIn (w : RealForm) (units : List CodeUnit) : Prop :=
  ∃ before after, (∀ u ∈ before, CodeUnit.isBlank u = true) ∧ (∀ u ∈ after, CodeUnit.isBlank u = true) ∧
    units = before ++ w.units ++ after

/-- The size of a form: the number of its digits without the point, times the power of ten that the exponent and the
    places behind the point make. -/
def size (w : RealForm) : ℚ :=
  Digits.value 10 (digitsOf 10 w.digits) * 10 ^ (w.shift - (w.places.getD []).length)

/-- The value of a form is the number nearest to its size. -/
theorem value_eq_iff : w.value = x ↔ x.IsNearest w.sign.isMinus w.size := by
  rw [eq_comm]
  exact Floating.eq_ofDecimal_iff x _ _ _

end RealForm

/-- Whether a unit is one of a real numeral: an ASCII digit, the letter of an exponent, a sign or the point. -/
def isRealUnit (u : CodeUnit) : Bool :=
  CodeUnit.isDigit u || isExponentLetter u || u == 0x2B || u == 0x2D || u == 0x2E

/-- A blank is no unit of a numeral. -/
theorem isRealUnit_of_isBlank (blank : CodeUnit.isBlank u = true) : isRealUnit u = false := by
  simp only [CodeUnit.isBlank, Bool.or_eq_true, beq_iff_eq] at blank
  rcases blank with ((rfl | rfl) | rfl) | rfl <;> decide

/-- A sign may stand in a numeral. -/
theorem isRealUnit_sign (s : Sign) : ∀ u ∈ s.units, isRealUnit u = true := by
  cases s <;> exact List.all_eq_true.mp (by decide)

/-- So may a digit. -/
theorem isRealUnit_of_isDigitIn (digit : isDigitIn 10 u = true) : isRealUnit u = true := by
  obtain ⟨least, greatest⟩ := range_of_isDigitIn digit
  have ascii : CodeUnit.isDigit u = true := by
    simp only [CodeUnit.isDigit, Bool.and_eq_true, decide_eq_true_eq, UInt16.le_iff_toNat_le]
    exact ⟨least, greatest le_rfl⟩
  simp [isRealUnit, ascii]

/-- The units of a form. -/
theorem RealForm.isRealUnit_units (w : RealForm) : ∀ u ∈ w.units, isRealUnit u = true := by
  intro u mem
  simp only [units, List.mem_append] at mem
  -- part by part: the sign, the whole, the fraction and the exponent
  rcases mem with sign | whole | fraction | power
  · exact isRealUnit_sign _ u sign
  · exact isRealUnit_of_isDigitIn (w.whole_isDigit u whole)
  · have isDigit := w.places_isDigit
    unfold RealForm.fraction at fraction
    cases places : w.places with
    | none => simp [places] at fraction
    | some ds =>
      rw [places] at fraction isDigit
      rcases List.mem_cons.mp fraction with rfl | digit
      · decide
      · exact isRealUnit_of_isDigitIn (isDigit u digit)
  · unfold RealForm.power at power
    cases exponent : w.exponent with
    | none => simp [exponent] at power
    | some e =>
      simp only [exponent, Option.elim_some, Exponent.units, List.mem_cons, List.mem_append] at power
      rcases power with rfl | sign | digit
      · simp [isRealUnit, e.isLetter]
      · exact isRealUnit_sign _ u sign
      · exact isRealUnit_of_isDigitIn (e.isDigit u digit)

/-- Blanks do not go on with a form. -/
theorem RealForm.ends_of_blank (w : RealForm) (blank : ∀ u ∈ rest.head?, CodeUnit.isBlank u = true) : w.Ends rest := by
  have other : ∀ u ∈ rest.head?, isRealUnit u = false := fun u mem => isRealUnit_of_isBlank (blank u mem)
  -- a digit may stand in a numeral, and a blank may not
  have noDigit : ∀ u ∈ rest.head?, isDigitIn 10 u = false := by
    intro u mem
    rw [← Bool.not_eq_true]
    intro digit
    have real := other u mem
    rw [isRealUnit_of_isDigitIn digit] at real
    cases real
  simp only [isRealUnit, Bool.or_eq_false_iff] at other
  refine ⟨noDigit, fun _ _ => ?_, fun _ => ?_⟩
  · apply startsWith_eq_false
    intro u mem point
    have noPoint := (other u mem).2
    rw [beq_eq_false_iff_ne] at noPoint
    exact noPoint (UInt16.toNat_inj.mp point)
  · exact exponent_of_head fun u mem => (other u mem).1.1.1.2

/-- **Whole units are read as the real numerals that are in them.** -/
theorem whole?_scanReal_eq_some_iff :
    whole? units (scanReal units) = some x ↔ ∃ w : RealForm, w.digits ≠ [] ∧ w.IsIn units ∧ w.value = x := by
  constructor
  · intro h
    cases scanned : scanReal units with
    | error n =>
      rw [scanned] at h
      cases h
    | ok found =>
      obtain ⟨value, stop⟩ := found
      obtain ⟨w, before, rest, some, blank, rfl, -, rfl, rfl⟩ := scanReal_eq_ok scanned
      rw [scanned, whole?, List.drop_left] at h
      split at h
      · rename_i after
        cases h
        exact ⟨w, some, ⟨before, rest, blank, List.all_eq_true.mp after, rfl⟩, rfl⟩
      · cases h
  · rintro ⟨w, some, ⟨before, after, blank, blank', rfl⟩, rfl⟩
    -- the blanks behind the numeral end it, so that the scan stops there
    have ends := w.ends_of_blank fun u mem => blank' u (List.mem_of_mem_head? mem)
    rw [RealForm.scanReal some blank ends, whole?, List.drop_left, if_pos (List.all_eq_true.mpr blank')]

/-! ### What no numeral has -/

/-- A unit that is neither a blank nor one of a numeral. -/
def HasForeignUnit (units : List CodeUnit) : Prop :=
  ∃ u ∈ units, CodeUnit.isBlank u = false ∧ isRealUnit u = false

/-- A blank with others before it and behind it. -/
def HasInnerBlank (units : List CodeUnit) : Prop :=
  ∃ p b q, units = p ++ b :: q ∧ CodeUnit.isBlank b = true ∧ (∃ u ∈ p, CodeUnit.isBlank u = false) ∧
    ∃ u ∈ q, CodeUnit.isBlank u = false

/-- A letter of an exponent without digits behind it, or behind a sign. -/
def HasBareExponent (units : List CodeUnit) : Prop :=
  ∃ p e rest, units = p ++ e :: rest ∧ isExponentLetter e = true ∧
    ∀ (s : Sign) d q, rest = s.units ++ d :: q → isDigitIn 10 d = false

/-- A unit is not among those of another kind. -/
theorem not_mem_of_forall {p : CodeUnit → Bool} (all : ∀ v ∈ units, p v = true) (none : p u = false) : u ∉ units := by
  intro mem
  rw [all u mem] at none
  cases none

namespace RealForm

variable (isIn : w.IsIn units)

include isIn

/-- A numeral with blanks around it has no foreign unit. -/
theorem IsIn.not_hasForeignUnit : ¬ HasForeignUnit units := by
  obtain ⟨before, after, blank, blank', rfl⟩ := isIn
  rintro ⟨u, mem, noBlank, foreign⟩
  simp only [List.mem_append] at mem
  rcases mem with (mem | mem) | mem
  · exact not_mem_of_forall blank noBlank mem
  · exact not_mem_of_forall w.isRealUnit_units foreign mem
  · exact not_mem_of_forall blank' noBlank mem

/-- A blank is one of those before the numeral, or of those behind it. -/
theorem IsIn.forall_isBlank {p q : List CodeUnit} (isBlank : CodeUnit.isBlank u = true) (split : units = p ++ u :: q) :
    (∀ v ∈ p, CodeUnit.isBlank v = true) ∨ ∀ v ∈ q, CodeUnit.isBlank v = true := by
  obtain ⟨before, after, blank, blank', rfl⟩ := isIn
  rw [List.append_assoc, List.append_eq_append_iff] at split
  rcases split with ⟨c, rfl, split⟩ | ⟨c, rfl, split⟩
  · rw [List.append_eq_append_iff] at split
    rcases split with ⟨d, rfl, behind⟩ | ⟨d, inside, behind⟩
    · right
      intro v mem
      apply blank' v
      simp [behind, mem]
    · cases d with
      | nil =>
        right
        intro v mem
        apply blank' v
        rw [← show u :: q = after from behind]
        exact List.mem_cons_of_mem u mem
      | cons d ds =>
        -- inside of the numeral there is none
        cases behind
        have real : u ∈ w.units := by simp [inside]
        exact absurd real (not_mem_of_forall w.isRealUnit_units (isRealUnit_of_isBlank isBlank))
  · left
    intro v mem
    apply blank v
    simp [mem]

/-- No blank stands between two units of it. -/
theorem IsIn.not_hasInnerBlank : ¬ HasInnerBlank units := by
  rintro ⟨p, b, q, split, isBlank, ⟨u, mem, noBlank⟩, v, mem', noBlank'⟩
  rcases isIn.forall_isBlank isBlank split with all | all
  · exact not_mem_of_forall all noBlank mem
  · exact not_mem_of_forall all noBlank' mem'

end RealForm

/-- The letter of an exponent is neither a digit nor a blank nor a sign nor a point. -/
theorem of_isExponentLetter (letter : isExponentLetter u = true) :
    isDigitIn 10 u = false ∧ CodeUnit.isBlank u = false ∧ (∀ s : Sign, u ∉ s.units) ∧ u ≠ 0x2E := by
  simp only [isExponentLetter, Bool.or_eq_true, beq_iff_eq] at letter
  have either : u = 0x65 ∨ u = 0x45 := letter.imp UInt16.toNat_inj.mp UInt16.toNat_inj.mp
  rcases either with rfl | rfl <;> refine ⟨by decide, by decide, ?_, by decide⟩ <;> intro s <;> cases s <;> decide

/-- What comes before the exponent of a form has no letter. -/
theorem RealForm.not_mem_of_isExponentLetter (w : RealForm) (letter : isExponentLetter u = true) :
    u ∉ w.sign.units ∧ u ∉ w.whole ∧ u ∉ w.fraction := by
  obtain ⟨noDigit, -, noSign, noPoint⟩ := of_isExponentLetter letter
  refine ⟨noSign _, not_mem_of_forall w.whole_isDigit noDigit, ?_⟩
  have isDigit := w.places_isDigit
  unfold fraction
  cases places : w.places with
  | none => simp
  | some ds =>
    rw [places] at isDigit
    simpa [noPoint] using not_mem_of_forall isDigit noDigit

/-- No letter of an exponent stands there without digits. -/
theorem RealForm.IsIn.not_hasBareExponent (isIn : w.IsIn units) : ¬ HasBareExponent units := by
  obtain ⟨before, after, blank, blank', rfl⟩ := isIn
  rintro ⟨p, e, rest, split, letter, bare⟩
  obtain ⟨noDigit, noBlank, noSign, -⟩ := of_isExponentLetter letter
  obtain ⟨bySign, byWhole, byFraction⟩ := w.not_mem_of_isExponentLetter letter
  have noBefore : e ∉ before := not_mem_of_forall blank noBlank
  have noAfter : e ∉ after := not_mem_of_forall blank' noBlank
  cases exponent : w.exponent with
  | none =>
    -- without an exponent there is no letter at all
    have mem : e ∈ before ++ w.units ++ after := by simp [split]
    simp [RealForm.units, RealForm.power, exponent, bySign, byWhole, byFraction, noBefore, noAfter] at mem
  | some f =>
    have units : p ++ e :: rest = (before ++ (w.sign.units ++ (w.whole ++ w.fraction))) ++
        f.letter :: (f.sign.units ++ (f.digits ++ after)) := by
      rw [← split, RealForm.units, RealForm.power, exponent, Option.elim_some, Exponent.units]
      simp only [List.append_assoc, List.cons_append]
    have digits : e ∉ f.digits := not_mem_of_forall f.isDigit noDigit
    -- the letter stands in one place only
    obtain ⟨-, -, same⟩ := (List.append_cons_inj_of_notMem
      (by simp [noBefore, bySign, byWhole, byFraction]) (by simp [noSign, digits, noAfter])).mp units.symm
    obtain ⟨d, ds, first⟩ := List.exists_cons_of_ne_nil f.digits_ne_nil
    have digit := f.isDigit d (by simp [first])
    rw [bare f.sign d (ds ++ after) (by rw [← same, first, List.cons_append])] at digit
    cases digit

end Numeral

/-! ### Texts that are read as reals -/

namespace Reading

open Numeral

variable {s : Text}

/-- A real is read by the scan of real numerals. -/
theorem real_read?_eq (s : Text) : real.read? s = whole? s.units (scanReal s.units) := by
  simp only [real]

/-- A text is read as a real if it is a numeral with blanks around it, and the value is the nearest one. -/
theorem real_strict_eq_ok_iff {x : Floating .double} :
    real.strict s = .ok x ↔
      ∃ w : RealForm, w.digits ≠ [] ∧ w.IsIn s.units ∧ x.IsNearest w.sign.isMinus w.size := by
  rw [strict_eq_ok_iff, real_read?_eq, whole?_scanReal_eq_some_iff]
  simp only [RealForm.value_eq_iff]

/-- A text without a numeral is refused. -/
theorem real_strict_of_not_isIn (none : ∀ w : RealForm, w.digits ≠ [] → ¬ w.IsIn s.units) :
    real.strict s = .error (.malformed .floatingPoint s) := by
  apply strict_of_read?_eq_none
  rw [real_read?_eq, Option.eq_none_iff_forall_ne_some]
  intro x whole
  obtain ⟨w, some, isIn, -⟩ := whole?_scanReal_eq_some_iff.mp whole
  exact none w some isIn

/-- **A text is read as a real if it is a real numeral with blanks around it.**  The value is the number of 64 bits
    nearest to the size of the numeral, with its sign.  Every other text is refused as a malformed one, and so is each
    that has a unit of no numeral, a blank inside or an exponent without digits. -/
theorem real_reads (s : Text) :
    (∀ x, real.strict s = .ok x ↔
      ∃ w : RealForm, w.digits ≠ [] ∧ w.IsIn s.units ∧ x.IsNearest w.sign.isMinus w.size) ∧
    ((∃ x, real.strict s = .ok x) ↔ ∃ w : RealForm, w.digits ≠ [] ∧ w.IsIn s.units) ∧
    ((¬ ∃ w : RealForm, w.digits ≠ [] ∧ w.IsIn s.units) →
      real.strict s = .error (.malformed .floatingPoint s)) ∧
    (HasForeignUnit s.units ∨ HasInnerBlank s.units ∨ HasBareExponent s.units →
      real.strict s = .error (.malformed .floatingPoint s)) ∧
    (Fault.malformed .floatingPoint s).kind = .convertError := by
  refine ⟨fun x => real_strict_eq_ok_iff, ?_, ?_, ?_, rfl⟩
  · constructor
    · rintro ⟨x, ok⟩
      obtain ⟨w, some, isIn, -⟩ := real_strict_eq_ok_iff.mp ok
      exact ⟨w, some, isIn⟩
    · rintro ⟨w, some, isIn⟩
      exact ⟨w.value, real_strict_eq_ok_iff.mpr ⟨w, some, isIn, RealForm.value_eq_iff.mp rfl⟩⟩
  · intro none
    apply real_strict_of_not_isIn
    intro w some isIn
    exact none ⟨w, some, isIn⟩
  · intro wrong
    apply real_strict_of_not_isIn
    intro w some isIn
    -- each of the three is something that no numeral has
    rcases wrong with foreign | inner | bare
    · exact isIn.not_hasForeignUnit foreign
    · exact isIn.not_hasInnerBlank inner
    · exact isIn.not_hasBareExponent bare

/-- A numeral with all its parts, the word for infinity, a digit that is none of ASCII, a blank between digits and an
    exponent that ends with its sign. -/
theorem real_reads_signed_exponent :
    let s := Text.ofString " -12.5E-1 "
    let x : Floating .double := ⟨0xBFF4000000000000⟩
    (real.strict s = .ok x ∧ ∃ w : RealForm, w.IsIn s.units ∧ x.IsNearest w.sign.isMinus w.size) ∧
      real.strict (.ofString "inf") = .error (.malformed .floatingPoint (.ofString "inf")) ∧
      real.strict (.ofString "\uff11") = .error (.malformed .floatingPoint (.ofString "\uff11")) ∧
      real.strict (.ofString "1 2") = .error (.malformed .floatingPoint (.ofString "1 2")) ∧
      real.strict (.ofString "1e+") = .error (.malformed .floatingPoint (.ofString "1e+")) := by
  intro s x
  have read : real.strict s = .ok x := by decide +kernel
  obtain ⟨w, -, isIn, nearest⟩ := ((real_reads s).1 x).mp read
  refine ⟨⟨read, w, isIn, nearest⟩, ?_, ?_, ?_, ?_⟩
  · exact (real_reads _).2.2.2.1 (.inl ⟨0x69, by decide +kernel⟩)
  · exact (real_reads _).2.2.2.1 (.inl ⟨0xFF11, by decide +kernel⟩)
  · refine (real_reads _).2.2.2.1 (.inr (.inl ⟨[0x31], 0x20, [0x32], by decide +kernel, by decide, ?_, ?_⟩))
    · exact ⟨0x31, by decide⟩
    · exact ⟨0x32, by decide⟩
  · refine (real_reads _).2.2.2.1 (.inr (.inr ⟨[0x31], 0x65, [0x2B], by decide +kernel, by decide, ?_⟩))
    intro sign d q split
    -- behind the letter stands a sign, and nothing behind that
    cases sign with
    | none =>
      cases split
      decide
    | plus | minus => cases split

end Reading

end SystemUnit
