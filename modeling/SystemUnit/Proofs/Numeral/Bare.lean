import SystemUnit.Proofs.Numeral.Word

namespace SystemUnit

namespace Numeral

/-!
# Numerals in base sixteen without a dollar sign

Where all digits are in base sixteen a numeral needs no mark: a zero and an x may stand before the digits, and a dollar
sign may not.  Such a numeral is written as one with a dollar sign is, but for the sign itself.

* `Mark.bare`, `Word.bare`, `Word.BareIn` — how a mark and a numeral are written then;
* `hexMark_spec`, `Word.hexMark_bare` — the mark that is found is the one that is there;
* `whole?_scanWide_hexMark_eq_some_iff` — the numerals that units are read as, and their values.
-/

variable {u : CodeUnit} {before rest units : List CodeUnit} {m : Mark} {w : Word} {bits : Nat}

/-- How a mark is written where digits without a mark are in base sixteen. -/
def Mark.bare : Mark → List CodeUnit
  | none | dollar => []
  | smallX => [0x30, 0x78]
  | capitalX => [0x30, 0x58]

/-- All marks are for base sixteen. -/
theorem Mark.radix_of_ne (marked : m ≠ .none) : m.radix = 16 := by
  cases m <;> first | rfl | exact absurd rfl marked

namespace Word

/-- How a numeral in base sixteen is written without a dollar sign. -/
def bare (w : Word) : List CodeUnit := w.sign.units ++ (w.mark.bare ++ w.digits)

/-- Units that are a numeral in base sixteen without a dollar sign, with blanks before and behind it, if any. -/
def BareIn (w : Word) (units : List CodeUnit) : Prop :=
  w.mark ≠ .none ∧ ∃ before after, (∀ u ∈ before, CodeUnit.isBlank u = true) ∧
    (∀ u ∈ after, CodeUnit.isBlank u = true) ∧ units = before ++ w.bare ++ after

end Word

/-! ### The mark that is found -/

/-- Where there is no x behind a zero, no mark is found. -/
theorem hexMark_spec (units : List CodeUnit) :
    ∃ (m : Mark) (rest : List CodeUnit), m ≠ .none ∧ units = m.bare ++ rest ∧
      hexMark units = (m.radix, m.bare.length) := by
  unfold hexMark
  split
  · rename_i mark
    rw [Bool.and_eq_true, Bool.or_eq_true] at mark
    obtain ⟨tail, rfl⟩ := startsWith_eq_true (u := 0x30) rfl mark.1
    rcases mark.2 with small | capital
    · obtain ⟨rest, rfl⟩ := startsWith_eq_true (u := 0x78) rfl small
      exact ⟨.smallX, rest, nofun, rfl, rfl⟩
    · obtain ⟨rest, rfl⟩ := startsWith_eq_true (u := 0x58) rfl capital
      exact ⟨.capitalX, rest, nofun, rfl, rfl⟩
  · exact ⟨.dollar, units, nofun, rfl, rfl⟩

/-- No digit in base sixteen and no blank is an x. -/
theorem startsWith_x_of_head (head : ∀ u ∈ units.head?, isDigitIn 16 u = true ∨ CodeUnit.isBlank u = true) :
    startsWith 'x' units = false ∧ startsWith 'X' units = false := by
  have other : ∀ x : CodeUnit, isDigitIn 16 x = false → CodeUnit.isBlank x = false →
      ∀ u ∈ units.head?, u.toNat ≠ x.toNat := by
    intro x noDigit noBlank u mem same
    obtain rfl := UInt16.toNat_inj.mp same
    simpa [noDigit, noBlank] using head u mem
  exact ⟨startsWith_eq_false (other 0x78 (by decide) (by decide)),
    startsWith_eq_false (other 0x58 (by decide) (by decide))⟩

/-- The mark of a numeral is found, as a blank or nothing follows it. -/
theorem Word.hexMark_bare (marked : w.mark ≠ .none) (ends : ∀ u ∈ rest.head?, CodeUnit.isBlank u = true) :
    hexMark (w.mark.bare ++ (w.digits ++ rest)) = (w.mark.radix, w.mark.bare.length) := by
  cases mark : w.mark with
  | none => exact absurd mark marked
  | smallX | capitalX => rfl
  | dollar =>
    obtain ⟨d, ds, digits⟩ := List.exists_cons_of_ne_nil w.digits_ne_nil
    -- the second unit is a digit or a blank, and in no case an x
    have second : ∀ u ∈ (ds ++ rest).head?, isDigitIn 16 u = true ∨ CodeUnit.isBlank u = true := by
      intro u mem
      cases ds with
      | nil => exact .inr (ends u mem)
      | cons e ds =>
        cases mem
        have digit := w.isDigit u (by simp [digits])
        rw [mark] at digit
        exact .inl digit
    obtain ⟨small, capital⟩ := startsWith_x_of_head second
    show hexMark (w.digits ++ rest) = (16, 0)
    rw [digits, List.cons_append, hexMark, List.tail_cons, small, capital]
    simp

/-! ### Numerals that are scanned -/

/-- The parts of a numeral are found before blanks or the end. -/
theorem Word.foundBy_bare (marked : w.mark ≠ .none) (blank : ∀ u ∈ before, CodeUnit.isBlank u = true)
    (ends : ∀ u ∈ rest.head?, CodeUnit.isBlank u = true) :
    FoundBy hexMark before w.sign w.mark w.mark.bare (w.digits ++ rest) := by
  refine foundBy_of_head blank ?_ (Word.hexMark_bare marked ends)
  obtain ⟨d, ds, digits⟩ := List.exists_cons_of_ne_nil w.digits_ne_nil
  -- neither a zero nor a digit is a sign or a blank
  intro u mem
  rw [digits] at mem
  cases mark : w.mark with
  | smallX | capitalX =>
    rw [mark] at mem
    cases mem
    decide
  | none | dollar =>
    rw [mark] at mem
    cases mem
    have other := ne_of_isDigitIn (w.isDigit d (by simp [digits]))
    exact ⟨other.1, other.2.1, other.2.2.2⟩

/-- **Whole units are read in base sixteen as the numerals without a dollar sign that are in them**, and that are within
    the limit of the width. -/
theorem whole?_scanWide_hexMark_eq_some_iff {n : Int} :
    whole? units (scanWide bits hexMark units) = some n ↔
      ∃ w : Word, w.BareIn units ∧ w.size ≤ limit bits 16 w.sign.isMinus ∧ w.valueIn bits = n := by
  constructor
  · intro h
    obtain ⟨before, s, tail, rfl, blank, start, signed⟩ := exists_start units
    obtain ⟨m, body, marked, rfl, mark⟩ := hexMark_spec tail
    have found : FoundBy hexMark before s m m.bare body := ⟨start, signed, mark⟩
    cases scanned : scanWide bits hexMark (before ++ (s.units ++ (m.bare ++ body))) with
    | error k =>
      rw [scanned] at h
      cases h
    | ok result =>
      obtain ⟨value, stop⟩ := result
      obtain ⟨w, rest, rfl, rfl, rfl, rfl, le, rfl⟩ := found.exists_word scanned
      have parts : before ++ (w.sign.units ++ (w.mark.bare ++ (w.digits ++ rest))) = before ++ w.bare ++ rest := by
        simp only [Word.bare, List.append_assoc]
      rw [scanned, whole?, parts, ← Word.bare, List.drop_left] at h
      split at h
      · rename_i after
        cases h
        rw [Mark.radix_of_ne marked] at le
        exact ⟨w, ⟨marked, before, rest, blank, List.all_eq_true.mp after, parts⟩, le, rfl⟩
      · cases h
  · rintro ⟨w, ⟨marked, before, after, blank, blank', rfl⟩, le, rfl⟩
    have ends : ∀ u ∈ after.head?, CodeUnit.isBlank u = true := by
      intro u mem
      exact blank' u (List.mem_of_mem_head? mem)
    rw [← Mark.radix_of_ne marked] at le
    rw [Word.bare, w.scanWide_of_found (Word.foundBy_bare marked blank ends) ends le, whole?, List.drop_left,
      if_pos (List.all_eq_true.mpr blank')]

end Numeral

end SystemUnit
