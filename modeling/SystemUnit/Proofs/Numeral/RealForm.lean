import SystemUnit.Proofs.Numeral.Stop

namespace SystemUnit

namespace Numeral

/-!
# Real numerals as they are written

A real numeral is written as a sign, digits, a point with digits behind it and an exponent, each of them only if it is
needed, and it has a digit before its point or behind it.  The scan takes the longest such form that is there.

* `Exponent`, `RealForm` — the parts of a real numeral;
* `RealForm.units`, `RealForm.value` — how it is written, and the number nearest to it;
* `RealForm.Ends` — what comes behind a numeral does not go on with it;
* `exists_realFound`, `RealFound.scanReal` — in all units there is a form to be found, and it is scanned if it has a
  digit;
* `RealForm.scanReal`, `scanReal_eq_ok` — a real numeral is scanned, and nothing else is;
* `startsReal_take`, `Unfinished.startsReal` — what is before the unit at which a scan stops is the start of a numeral,
  and so it may be with the unit;
* `stop_scanReal_congr` — else the scan stops there whatever comes behind the unit.
-/

/-! ### The parts of a real numeral -/

/-- Whether a unit is the letter of an exponent. -/
def isExponentLetter (u : CodeUnit) : Bool := u.toNat == 'e'.toNat || u.toNat == 'E'.toNat

/-- An exponent as it is written: a letter, a sign, and digits, one at least. -/
structure Exponent where
  letter : CodeUnit
  sign : Sign
  digits : List CodeUnit
  isLetter : isExponentLetter letter = true
  digits_ne_nil : digits ≠ []
  isDigit : ∀ u ∈ digits, isDigitIn 10 u = true

namespace Exponent

variable (e : Exponent)

/-- How an exponent is written. -/
def units : List CodeUnit := e.letter :: (e.sign.units ++ e.digits)

/-- The number of an exponent. -/
def value : Int :=
  if e.sign.isMinus then -(Digits.value 10 (digitsOf 10 e.digits) : Int) else Digits.value 10 (digitsOf 10 e.digits)

end Exponent

/-- The form of a real numeral: a sign, digits, a point with digits behind it, and an exponent.  It is the form of a
    numeral if it has a digit before the exponent. -/
structure RealForm where
  sign : Sign
  whole : List CodeUnit
  places : Option (List CodeUnit)
  exponent : Option Exponent
  whole_isDigit : ∀ u ∈ whole, isDigitIn 10 u = true
  places_isDigit : ∀ u ∈ places.getD [], isDigitIn 10 u = true

namespace RealForm

variable (w : RealForm)

/-- The digits before the exponent. -/
def digits : List CodeUnit := w.whole ++ w.places.getD []

/-- The point and the digits behind it. -/
def fraction : List CodeUnit := w.places.elim [] (0x2E :: ·)

/-- The exponent as it is written. -/
def power : List CodeUnit := w.exponent.elim [] Exponent.units

/-- How a form is written. -/
def units : List CodeUnit := w.sign.units ++ (w.whole ++ (w.fraction ++ w.power))

/-- The number of the exponent. -/
def shift : Int := w.exponent.elim 0 Exponent.value

/-- The number nearest to a numeral. -/
def value : Floating .double :=
  Floating.ofDecimal .double w.sign.isMinus (Digits.value 10 (digitsOf 10 w.digits))
    (w.shift - (w.places.getD []).length)

/-- What comes behind a form does not go on with it. -/
structure Ends (w : RealForm) (rest : List CodeUnit) : Prop where
  noDigit : ∀ u ∈ rest.head?, isDigitIn 10 u = false
  noPoint : w.places = none → w.exponent = none → startsWith '.' rest = false
  noExponent : w.exponent = none → Numeral.exponent rest = (0, 0)

end RealForm

variable {radix : Nat} {digits rest units : List CodeUnit} {u : CodeUnit}

/-! ### Runs of decimal digits -/

/-- Digits are found up to the first unit that is none. -/
theorem decimalRun_append (isDigit : ∀ u ∈ digits, isDigitIn 10 u = true)
    (ends : ∀ u ∈ rest.head?, isDigitIn 10 u = false) : decimalRun (digits ++ rest) = digitsOf 10 digits := by
  induction digits with
  | nil =>
    cases rest with
    | nil => rfl
    | cons u rest =>
      have none : Digits.ofCode 10 u.toNat = none := by
        simpa [isDigitIn] using ends u rfl
      rw [List.nil_append, decimalRun, none]
      rfl
  | cons u digits ih =>
    -- each digit goes on, and the first unit that is none ends the run
    obtain ⟨d, code⟩ := Option.isSome_iff_exists.mp (isDigit u List.mem_cons_self)
    rw [List.cons_append, decimalRun, code, digitsOf_cons code]
    exact congrArg (d :: ·) (ih fun u mem => isDigit u (List.mem_cons_of_mem _ mem))

/-- There are as many digits as units, if all of them are digits. -/
theorem length_digitsOf (isDigit : ∀ u ∈ digits, isDigitIn radix u = true) :
    (digitsOf radix digits).length = digits.length :=
  List.filterMap_length_eq_length.mpr isDigit

/-- So there are no digits only where there are no units. -/
theorem isEmpty_digitsOf (isDigit : ∀ u ∈ digits, isDigitIn radix u = true) :
    (digitsOf radix digits).isEmpty = digits.isEmpty := by
  rw [Bool.eq_iff_iff, List.isEmpty_iff_length_eq_zero, List.isEmpty_iff_length_eq_zero, length_digitsOf isDigit]

/-- Digits behind digits are the digits of both. -/
theorem digitsOf_append (radix : Nat) (a b : List CodeUnit) :
    digitsOf radix (a ++ b) = digitsOf radix a ++ digitsOf radix b :=
  List.filterMap_append

/-- All units start with a run of digits. -/
theorem exists_digits (radix : Nat) (units : List CodeUnit) :
    ∃ digits rest, units = digits ++ rest ∧ (∀ u ∈ digits, isDigitIn radix u = true) ∧
      ∀ u ∈ rest.head?, isDigitIn radix u = false := by
  refine ⟨units.takeWhile (isDigitIn radix), units.dropWhile (isDigitIn radix),
    List.takeWhile_append_dropWhile.symm, List.all_eq_true.mp List.all_takeWhile, ?_⟩
  intro u mem
  have notDigit := List.head?_dropWhile_not (isDigitIn radix) units
  rw [mem] at notDigit
  exact notDigit

/-! ### Exponents -/

namespace Exponent

variable (e : Exponent)

/-- An exponent is found where one is written. -/
theorem exponent_append (ends : ∀ u ∈ rest.head?, isDigitIn 10 u = false) :
    Numeral.exponent (e.units ++ rest) = (e.value, e.units.length) := by
  obtain ⟨d, ds, digits⟩ := List.exists_cons_of_ne_nil e.digits_ne_nil
  -- a digit is no sign, so that the sign ends before the first one
  have signed : Numeral.sign (e.sign.units ++ (e.digits ++ rest)) = (e.sign.isMinus, e.sign.units.length) := by
    apply sign_append
    intro u mem
    rw [digits] at mem
    cases mem
    have other := ne_of_isDigitIn (e.isDigit d (digits ▸ List.mem_cons_self))
    exact ⟨other.1, other.2.1⟩
  have some : (digitsOf 10 e.digits).isEmpty = false := by
    rw [isEmpty_digitsOf e.isDigit]
    exact List.isEmpty_eq_false_iff.mpr e.digits_ne_nil
  have parts : e.units ++ rest = e.letter :: (e.sign.units ++ (e.digits ++ rest)) := by
    simp only [units, List.cons_append, List.append_assoc]
  have letter : (startsWith 'e' (e.units ++ rest) || startsWith 'E' (e.units ++ rest)) = true := e.isLetter
  -- the letter and the sign are passed over
  have behind : (e.units ++ rest).drop (1 + e.sign.units.length) = e.digits ++ rest := by
    rw [parts, Nat.add_comm, List.drop_succ_cons, List.drop_left]
  unfold Numeral.exponent
  rw [if_pos letter]
  simp only [parts, List.tail_cons, signed]
  rw [← parts, behind, decimalRun_append e.isDigit ends, some, if_neg Bool.false_ne_true,
    length_digitsOf e.isDigit]
  simp only [units, value, List.length_cons, List.length_append]
  rw [Nat.add_assoc, Nat.add_comm 1]

end Exponent

/-- Where no letter is there is no exponent. -/
theorem exponent_of_head (noLetter : ∀ u ∈ units.head?, isExponentLetter u = false) :
    exponent units = (0, 0) := by
  cases units with
  | nil => rfl
  | cons u units =>
    have none : (startsWith 'e' (u :: units) || startsWith 'E' (u :: units)) = false := noLetter u rfl
    rw [exponent, none]
    rfl

/-- Behind the digits of a numeral there is an exponent, or none is found. -/
theorem exists_exponent (noDigit : ∀ u ∈ units.head?, isDigitIn 10 u = false) :
    ∃ (e : Option Exponent) (rest : List CodeUnit), units = e.elim [] Exponent.units ++ rest ∧
      (∀ u ∈ rest.head?, isDigitIn 10 u = false) ∧ (e = none → exponent rest = (0, 0)) := by
  have without : exponent units = (0, 0) → ∃ (e : Option Exponent) (rest : List CodeUnit),
      units = e.elim [] Exponent.units ++ rest ∧ (∀ u ∈ rest.head?, isDigitIn 10 u = false) ∧
        (e = none → exponent rest = (0, 0)) :=
    fun nothing => ⟨none, units, rfl, noDigit, fun _ => nothing⟩
  cases units with
  | nil => exact without rfl
  | cons u tail =>
    cases letter : isExponentLetter u with
    | false =>
      apply without
      apply exponent_of_head
      intro v mem
      cases mem
      exact letter
    | true =>
      obtain ⟨s, behind, rfl, signed⟩ := sign_spec tail
      obtain ⟨digits, rest, rfl, isDigit, ends⟩ := exists_digits 10 behind
      by_cases none : digits = []
      · -- a letter without digits behind it is left where it is
        apply without
        have first : (startsWith 'e' (u :: (s.units ++ (digits ++ rest))) ||
            startsWith 'E' (u :: (s.units ++ (digits ++ rest)))) = true := letter
        have run : decimalRun ((u :: (s.units ++ (digits ++ rest))).drop (1 + s.units.length)) = [] := by
          rw [Nat.add_comm, List.drop_succ_cons, List.drop_left, decimalRun_append isDigit ends, none]
          rfl
        rw [exponent, if_pos first]
        simp only [List.tail_cons, signed, run, List.isEmpty_nil, if_true]
      · refine ⟨some ⟨u, s, digits, letter, none, isDigit⟩, rest, ?_, ends, nofun⟩
        show _ = (u :: (s.units ++ digits)) ++ rest
        rw [List.cons_append, List.append_assoc]

namespace RealForm

variable (w : RealForm)

/-- Every numeral ends at the end of a text. -/
theorem ends_nil : w.Ends [] :=
  ⟨nofun, fun _ _ => rfl, fun _ => rfl⟩

/-- A numeral with what comes behind it, part by part. -/
theorem units_append (rest : List CodeUnit) :
    w.units ++ rest = w.sign.units ++ (w.whole ++ (w.fraction ++ (w.power ++ rest))) := by
  simp only [units, List.append_assoc]

/-- The fraction is as long as its digits and its point, if it has one. -/
theorem length_fraction : w.fraction.length = (if w.places.isSome then 1 else 0) + (w.places.getD []).length := by
  unfold fraction
  cases w.places with
  | none => rfl
  | some ds => exact Nat.add_comm _ _

variable {w}

/-! ### What is behind the parts of a form -/

namespace Ends

variable (ends : w.Ends rest)

include ends

/-- The exponent of a numeral is scanned whole, and it ends where the numeral does. -/
theorem exponent_power : Numeral.exponent (w.power ++ rest) = (w.shift, w.power.length) := by
  unfold power shift
  cases exponent : w.exponent with
  | none => exact ends.noExponent exponent
  | some e => exact e.exponent_append ends.noDigit

/-- No digit stands behind the fraction, and no point where there is no fraction. -/
theorem head_power : ∀ u ∈ (w.power ++ rest).head?,
    isDigitIn 10 u = false ∧ (w.places = none → u.toNat ≠ '.'.toNat) := by
  intro u mem
  unfold power at mem
  cases exponent : w.exponent with
  | none =>
    rw [exponent] at mem
    refine ⟨ends.noDigit u mem, ?_⟩
    intro noPlaces point
    have head : rest.head? = some u := mem
    have noPoint := ends.noPoint noPlaces exponent
    rw [startsWith, head, Option.any_some, point, beq_self_eq_true] at noPoint
    cases noPoint
  | some e =>
    rw [exponent] at mem
    cases mem
    have letter := e.isLetter
    rw [isExponentLetter, Bool.or_eq_true, beq_iff_eq, beq_iff_eq] at letter
    have code : e.letter.toNat = 0x65 ∨ e.letter.toNat = 0x45 := letter
    have point : '.'.toNat = 0x2E := rfl
    -- the letter of an exponent is neither a digit nor a point
    refine ⟨?_, fun _ => by omega⟩
    rw [← Bool.not_eq_true]
    intro digit
    have range := (range_of_isDigitIn digit).2 (Nat.le_refl 10)
    omega

/-- There is a point behind the whole part only if the fraction has one. -/
theorem startsWith_fraction : startsWith '.' (w.fraction ++ (w.power ++ rest)) = w.places.isSome := by
  unfold fraction
  cases places : w.places with
  | none => exact startsWith_eq_false fun u mem => (ends.head_power u mem).2 places
  | some ds => rfl

/-- No digit stands behind the whole part. -/
theorem noDigit_fraction : ∀ u ∈ (w.fraction ++ (w.power ++ rest)).head?, isDigitIn 10 u = false := by
  intro u mem
  unfold fraction at mem
  cases places : w.places with
  | none =>
    rw [places] at mem
    exact (ends.head_power u mem).1
  | some ds =>
    rw [places] at mem
    cases mem
    decide

/-- The digits behind the point are scanned whole. -/
theorem decimalRun_places : (if w.places.isSome then decimalRun ((w.fraction ++ (w.power ++ rest)).drop 1) else []) =
    digitsOf 10 (w.places.getD []) := by
  have isDigit := w.places_isDigit
  unfold fraction
  cases places : w.places with
  | none => rfl
  | some ds =>
    rw [places] at isDigit
    exact decimalRun_append isDigit fun u mem => (ends.head_power u mem).1

end Ends

end RealForm

/-! ### The form that is found -/

/-- The blanks before a form, its sign and its end are what a scan finds. -/
structure RealFound (before : List CodeUnit) (w : RealForm) (rest : List CodeUnit) : Prop where
  blank : ∀ u ∈ before, CodeUnit.isBlank u = true
  start : blanks (before ++ (w.units ++ rest)) = before.length
  signed : sign (w.units ++ rest) = (w.sign.isMinus, w.sign.units.length)
  ends : w.Ends rest

variable {before : List CodeUnit} {w : RealForm}

/-- Behind digits there is a point with digits behind it, or no point. -/
theorem exists_places (noDigit : ∀ u ∈ units.head?, isDigitIn 10 u = false) :
    ∃ (places : Option (List CodeUnit)) (rest : List CodeUnit), units = places.elim [] (0x2E :: ·) ++ rest ∧
      (∀ u ∈ places.getD [], isDigitIn 10 u = true) ∧ (∀ u ∈ rest.head?, isDigitIn 10 u = false) ∧
      (places = none → startsWith '.' rest = false) := by
  cases point : startsWith '.' units with
  | false => exact ⟨none, units, rfl, List.forall_mem_nil _, noDigit, fun _ => point⟩
  | true =>
    obtain ⟨behind, rfl⟩ := startsWith_eq_true (u := 0x2E) rfl point
    obtain ⟨digits, rest, rfl, isDigit, ends⟩ := exists_digits 10 behind
    exact ⟨some digits, rest, rfl, isDigit, ends, nofun⟩

/-- A form is found in all units. -/
theorem exists_realFound (units : List CodeUnit) :
    ∃ before w rest, units = before ++ (w.units ++ rest) ∧ RealFound before w rest := by
  obtain ⟨s, tail, tail_eq, signed⟩ := sign_spec (units.dropWhile CodeUnit.isBlank)
  -- part by part, each as long as it may be
  obtain ⟨whole, behind, rfl, isDigit, noDigit⟩ := exists_digits 10 tail
  obtain ⟨places, behind, rfl, placesDigit, noDigit, noPoint⟩ := exists_places noDigit
  obtain ⟨e, rest, rfl, noDigit, noExponent⟩ := exists_exponent noDigit
  let w : RealForm := ⟨s, whole, places, e, isDigit, placesDigit⟩
  have form : units.dropWhile CodeUnit.isBlank = w.units ++ rest := by
    rw [tail_eq, RealForm.units, List.append_assoc, List.append_assoc, List.append_assoc]
    rfl
  have units_eq : units = units.takeWhile CodeUnit.isBlank ++ (w.units ++ rest) := by
    rw [← form, List.takeWhile_append_dropWhile]
  refine ⟨units.takeWhile CodeUnit.isBlank, w, rest, units_eq, List.all_eq_true.mp List.all_takeWhile, ?_, ?_,
    noDigit, ?_, noExponent⟩
  · rw [← units_eq]
    rfl
  · rw [← form]
    exact signed
  · intro noPlaces none
    have here := noPoint noPlaces
    rw [show e = Option.none from none] at here
    exact here

/-- The form that is found is scanned if it has a digit. -/
theorem RealFound.scanReal (found : RealFound before w rest) :
    scanReal (before ++ (w.units ++ rest)) =
      if w.digits = [] then .error before.length else .ok (w.value, (before ++ w.units).length) := by
  -- where each part begins, told by the lengths of those before it
  have behindSign : (before ++ (w.units ++ rest)).drop (before.length + w.sign.units.length) =
      w.whole ++ (w.fraction ++ (w.power ++ rest)) := by
    rw [← List.drop_drop, List.drop_left, w.units_append, List.drop_left]
  have behindWhole : (before ++ (w.units ++ rest)).drop (before.length + w.sign.units.length + w.whole.length) =
      w.fraction ++ (w.power ++ rest) := by
    rw [← List.drop_drop, behindSign, List.drop_left]
  have behindPoint : (before ++ (w.units ++ rest)).drop
      (before.length + w.sign.units.length + w.whole.length + 1) = (w.fraction ++ (w.power ++ rest)).drop 1 := by
    rw [← List.drop_drop, behindWhole]
  have behindFraction : (before ++ (w.units ++ rest)).drop
      (before.length + w.sign.units.length + w.whole.length + w.fraction.length) = w.power ++ rest := by
    rw [← List.drop_drop, behindWhole, List.drop_left]
  have point : ((if w.places.isSome then 1 else 0) = 1) = (w.places.isSome = true) := by
    cases w.places <;> simp
  have stop : before.length + w.sign.units.length + w.whole.length + (if w.places.isSome then 1 else 0) +
      (w.places.getD []).length = before.length + w.sign.units.length + w.whole.length + w.fraction.length := by
    rw [w.length_fraction, Nat.add_assoc _ (if w.places.isSome then 1 else 0)]
  -- the scan fails only for want of digits on both sides of the point
  have noDigits : ((digitsOf 10 w.whole).isEmpty && (digitsOf 10 (w.places.getD [])).isEmpty) = true ↔
      w.digits = [] := by
    rw [isEmpty_digitsOf w.whole_isDigit, isEmpty_digitsOf w.places_isDigit, Bool.and_eq_true, List.isEmpty_iff,
      List.isEmpty_iff, RealForm.digits, List.append_eq_nil_iff]
  have whole := decimalRun_append w.whole_isDigit found.ends.noDigit_fraction
  have places := found.ends.decimalRun_places
  unfold Numeral.scanReal
  simp only [found.start, List.drop_left, found.signed, behindSign, whole, length_digitsOf w.whole_isDigit,
    behindWhole, found.ends.startsWith_fraction, point, behindPoint, places, length_digitsOf w.places_isDigit, stop,
    behindFraction, found.ends.exponent_power, noDigits]
  by_cases none : w.digits = []
  · rw [if_pos none, if_pos none]
  · rw [if_neg none, if_neg none, RealForm.value, RealForm.digits, digitsOf_append]
    simp only [RealForm.units, List.length_append, Nat.add_assoc]

/-- The form of a numeral is found behind blanks. -/
theorem RealForm.found (some : w.digits ≠ []) (blank : ∀ u ∈ before, CodeUnit.isBlank u = true) (ends : w.Ends rest) :
    RealFound before w rest := by
  -- behind the sign there is a digit or a point
  have behind : ∀ u ∈ (w.whole ++ (w.fraction ++ (w.power ++ rest))).head?,
      u.toNat ≠ '-'.toNat ∧ u.toNat ≠ '+'.toNat ∧ CodeUnit.isBlank u = false := by
    intro u mem
    have isDigit := w.whole_isDigit
    cases whole : w.whole with
    | cons d ds =>
      rw [whole] at mem isDigit
      cases mem
      have other := ne_of_isDigitIn (isDigit u List.mem_cons_self)
      exact ⟨other.1, other.2.1, other.2.2.2⟩
    | nil =>
      cases places : w.places with
      | none =>
        refine absurd ?_ some
        rw [digits, whole, places]
        rfl
      | some ds =>
        rw [whole, fraction, places] at mem
        cases mem
        decide
  refine ⟨blank, ?_, ?_, ends⟩
  · apply blanks_append blank
    intro u mem
    rw [w.units_append] at mem
    cases sign : w.sign with
    | plus | minus =>
      rw [sign] at mem
      cases mem
      decide
    | none =>
      rw [sign] at mem
      exact (behind u mem).2.2
  · rw [w.units_append]
    exact sign_append w.sign fun u mem => ⟨(behind u mem).1, (behind u mem).2.1⟩

/-! ### Real numerals are scanned, and nothing else -/

/-- A real numeral is scanned behind blanks, up to what does not go on with it. -/
theorem RealForm.scanReal (some : w.digits ≠ []) (blank : ∀ u ∈ before, CodeUnit.isBlank u = true)
    (ends : w.Ends rest) :
    Numeral.scanReal (before ++ w.units ++ rest) = .ok (w.value, (before ++ w.units).length) := by
  rw [List.append_assoc, (RealForm.found some blank ends).scanReal, if_neg some]

/-- What is scanned is a real numeral, as long as it goes on. -/
theorem scanReal_eq_ok {x : Floating .double} {n : Nat} (h : scanReal units = .ok (x, n)) :
    ∃ (w : RealForm) (before rest : List CodeUnit), w.digits ≠ [] ∧ (∀ u ∈ before, CodeUnit.isBlank u = true) ∧
      units = before ++ w.units ++ rest ∧ w.Ends rest ∧ n = (before ++ w.units).length ∧ w.value = x := by
  obtain ⟨before, w, rest, rfl, found⟩ := exists_realFound units
  rw [found.scanReal] at h
  split at h
  · cases h
  · rename_i some
    cases h
    exact ⟨w, before, rest, some, found.blank, (List.append_assoc _ _ _).symm, found.ends, rfl, rfl⟩

/-- A scan that fails does so behind the blanks, and there is no digit there. -/
theorem scanReal_eq_error {n : Nat} (h : scanReal units = .error n) :
    ∃ before rest, units = before ++ rest ∧ before.length = n ∧ (∀ u ∈ before, CodeUnit.isBlank u = true) ∧
      ∀ u ∈ rest.head?, isDigitIn 10 u = false ∧ CodeUnit.isBlank u = false := by
  obtain ⟨before, w, rest, rfl, found⟩ := exists_realFound units
  rw [found.scanReal] at h
  split at h
  · rename_i none
    cases h
    refine ⟨before, w.units ++ rest, rfl, rfl, found.blank, ?_⟩
    intro u mem
    refine ⟨?_, isBlank_eq_false_of_blanks found.blank found.start u mem⟩
    -- without digits a numeral begins with its sign, or with what stands behind its fraction
    have nil := List.append_eq_nil_iff.mp none
    have tail := found.ends.noDigit_fraction
    rw [w.units_append, nil.1, List.nil_append] at mem
    cases sign : w.sign with
    | plus | minus =>
      rw [sign] at mem
      cases mem
      decide
    | none =>
      rw [sign] at mem
      exact tail u mem
  · cases h

/-- Where there is no digit, sign or point behind the blanks, there is no real numeral. -/
theorem scanReal_of_head (blank : ∀ u ∈ before, CodeUnit.isBlank u = true) (notBlank : CodeUnit.isBlank u = false)
    (noDigit : isDigitIn 10 u = false) (noSign : u.toNat ≠ '-'.toNat ∧ u.toNat ≠ '+'.toNat)
    (noPoint : u.toNat ≠ '.'.toNat) : scanReal (before ++ u :: rest) = .error before.length := by
  have head : ∀ v ∈ (u :: rest).head?, isDigitIn 10 v = false := by
    intro v mem
    cases mem
    exact noDigit
  obtain ⟨e, behind, units, noDigit, noExponent⟩ := exists_exponent head
  -- the form that is found has no part but perhaps an exponent
  let w : RealForm := ⟨.none, [], none, e, List.forall_mem_nil _, List.forall_mem_nil _⟩
  have form : w.units ++ behind = u :: rest := units.symm
  have found : RealFound before w behind := by
    refine ⟨blank, ?_, ?_, noDigit, ?_, noExponent⟩
    · rw [form]
      apply blanks_append blank
      intro v mem
      cases mem
      exact notBlank
    · rw [form]
      refine sign_append .none fun v mem => ?_
      cases mem
      exact noSign
    · intro _ none
      have same : behind = u :: rest := by
        rw [units, show e = Option.none from none]
        rfl
      rw [same]
      apply startsWith_eq_false
      intro v mem
      cases mem
      exact noPoint
  rw [← form, found.scanReal]
  exact if_pos rfl

/-! ### Where the scan of a real numeral stops -/

/-- The scan stops at a place in the text, or behind all of it. -/
theorem stop_scanReal_le (units : List CodeUnit) : stop (scanReal units) ≤ units.length := by
  cases scanned : scanReal units with
  | error n =>
    obtain ⟨before, rest, rfl, rfl, -, -⟩ := scanReal_eq_error scanned
    exact (List.prefix_append before rest).length_le
  | ok found =>
    obtain ⟨x, n⟩ := found
    obtain ⟨w, before, rest, -, -, rfl, -, rfl, -⟩ := scanReal_eq_ok scanned
    exact (List.prefix_append (before ++ w.units) rest).length_le

/-- Units that a real numeral starts with, behind blanks. -/
def StartsReal (p : List CodeUnit) : Prop :=
  ∃ (w : RealForm) (before : List CodeUnit), w.digits ≠ [] ∧ (∀ u ∈ before, CodeUnit.isBlank u = true) ∧
    p <+: before ++ w.units

/-- A real numeral may go on with a unit that the scan takes only if digits come behind it: a sign or a point behind
    blanks, and the letter of an exponent behind a numeral without one. -/
def Unfinished (p : List CodeUnit) (u : CodeUnit) : Prop :=
  (∀ v ∈ p, CodeUnit.isBlank v = true) ∧ (u.toNat = '-'.toNat ∨ u.toNat = '+'.toNat ∨ u.toNat = '.'.toNat) ∨
    isExponentLetter u = true ∧ ∃ (w : RealForm) (before : List CodeUnit), w.digits ≠ [] ∧ w.exponent = none ∧
      (∀ u ∈ before, CodeUnit.isBlank u = true) ∧ p = before ++ w.units

/-- What is before the unit at which a scan stops is the start of a real numeral. -/
theorem startsReal_take (units : List CodeUnit) : StartsReal (units.take (stop (scanReal units))) := by
  cases scanned : scanReal units with
  | error n =>
    obtain ⟨before, rest, rfl, rfl, blank, -⟩ := scanReal_eq_error scanned
    -- blanks come before a zero
    refine ⟨⟨.none, [0x30], none, none, isDigit_zero (by decide), List.forall_mem_nil _⟩, before,
      List.cons_ne_nil _ _, blank, ?_⟩
    rw [stop, List.take_left]
    exact List.prefix_append _ _
  | ok found =>
    obtain ⟨x, n⟩ := found
    obtain ⟨w, before, rest, some, blank, rfl, -, rfl, -⟩ := scanReal_eq_ok scanned
    have taken : (before ++ w.units ++ rest).take (before ++ w.units).length = before ++ w.units := List.take_left
    exact ⟨w, before, some, blank, [], (List.append_nil _).trans taken⟩

/-- **A start that a unit does not finish goes on to a numeral**, with a zero behind the unit. -/
theorem Unfinished.startsReal {p : List CodeUnit} (h : Unfinished p u) : StartsReal (p ++ [u]) := by
  have zero : ∀ u ∈ [(0x30 : CodeUnit)], isDigitIn 10 u = true := isDigit_zero (by decide)
  have noDigit : ∀ u ∈ ([] : List CodeUnit), isDigitIn 10 u = true := List.forall_mem_nil _
  rcases h with ⟨blank, minus | plus | point⟩ | ⟨letter, w, before, some, none, blank, rfl⟩
  · obtain rfl : u = 0x2D := UInt16.toNat_inj.mp minus
    exact ⟨⟨.minus, [0x30], none, none, zero, noDigit⟩, p, List.cons_ne_nil _ _, blank,
      (List.prefix_append_right_inj p).mpr (List.prefix_append [0x2D] _)⟩
  · obtain rfl : u = 0x2B := UInt16.toNat_inj.mp plus
    exact ⟨⟨.plus, [0x30], none, none, zero, noDigit⟩, p, List.cons_ne_nil _ _, blank,
      (List.prefix_append_right_inj p).mpr (List.prefix_append [0x2B] _)⟩
  · obtain rfl : u = 0x2E := UInt16.toNat_inj.mp point
    exact ⟨⟨.none, [], some [0x30], none, noDigit, zero⟩, p, List.cons_ne_nil _ _, blank,
      (List.prefix_append_right_inj p).mpr (List.prefix_append [0x2E] _)⟩
  · -- a letter behind a numeral without an exponent gets a zero for its digits
    let e : Exponent := ⟨u, .none, [0x30], letter, List.cons_ne_nil _ _, zero⟩
    let longer : RealForm := ⟨w.sign, w.whole, w.places, e, w.whole_isDigit, w.places_isDigit⟩
    have units : longer.units = w.units ++ [u, 0x30] := by
      have power : w.power = [] := by
        rw [RealForm.power, none]
        rfl
      rw [RealForm.units, RealForm.units, power, List.append_assoc, List.append_assoc, List.append_assoc]
      rfl
    refine ⟨longer, before, some, blank, ?_⟩
    rw [units, List.append_assoc, List.prefix_append_right_inj, List.prefix_append_right_inj]
    exact List.prefix_append [u] [0x30]

/-- **A scan that stops at a unit stops there whatever comes behind it**, unless a numeral may go on with the unit. -/
theorem stop_scanReal_congr {p x : List CodeUnit} (y : List CodeUnit) (finished : ¬ Unfinished p u)
    (h : stop (scanReal (p ++ u :: x)) = p.length) : stop (scanReal (p ++ u :: y)) = p.length := by
  cases scanned : scanReal (p ++ u :: x) with
  | error n =>
    rw [scanned] at h
    obtain ⟨before, rest, units, length, blank, head⟩ := scanReal_eq_error scanned
    obtain ⟨rfl, rfl⟩ := List.append_inj units (h.symm.trans length.symm)
    obtain ⟨noDigit, notBlank⟩ := head u rfl
    -- neither a sign nor a point, or it would go on
    have noSign : ¬ (u.toNat = '-'.toNat ∨ u.toNat = '+'.toNat ∨ u.toNat = '.'.toNat) := by
      intro sign
      exact finished (.inl ⟨blank, sign⟩)
    rw [not_or, not_or] at noSign
    rw [scanReal_of_head blank notBlank noDigit ⟨noSign.1, noSign.2.1⟩ noSign.2.2]
    rfl
  | ok found =>
    obtain ⟨v, n⟩ := found
    rw [scanned] at h
    obtain ⟨w, before, rest, some, blank, units, ends, rfl, -⟩ := scanReal_eq_ok scanned
    obtain ⟨rfl, rfl⟩ := List.append_inj units h.symm
    have ends' : w.Ends (u :: y) := by
      refine ⟨ends.noDigit, ends.noPoint, ?_⟩
      intro none
      apply exponent_of_head
      intro v mem
      cases mem
      rw [← Bool.not_eq_true]
      intro letter
      exact finished (.inr ⟨letter, w, before, some, none, blank, rfl⟩)
    rw [RealForm.scanReal some blank ends']
    rfl

end Numeral

end SystemUnit
