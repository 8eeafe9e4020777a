import SystemUnit.Proofs.Conversion.Integer
import SystemUnit.Proofs.Numeral.Bare

namespace SystemUnit

/-!
# Integers in base sixteen from texts

Where a text is read in base sixteen, a dollar sign may stand before everything else, and behind it comes a numeral as
it is without one: with blanks, a sign, and a zero and an x.  Where the mark of a text tells the radix, a dollar sign
stands behind the sign and right before the digits.  So the two readings agree on marked texts, but for those whose
dollar sign is not in the one place that both allow.

* `Numeral.MarkedBy`, `Numeral.StartsBare` — texts with a mark for base sixteen, and digits with nothing before them;
* `Numeral.FoundBy.whole?_scan_congr` — scans that find the same sign and the same mark, and go on with the same;
* `Reading.whole?_scan_hexMark_map_eq_some_iff` — the numerals that are read in base sixteen;
* `Reading.hexadecimal_agrees_unless_detached` — where the two readings agree, and which one refuses where they do not;
* `Reading.hexadecimal_refuses_signed_dollar` — marked texts that only one of them reads.
-/

namespace Numeral

variable {mark mark' : List CodeUnit → Nat × Nat} {before before' lead lead' body units : List CodeUnit}
  {s : Sign} {m : Mark} {w : Word} {bits : Nat}

/-! ### Texts with a mark -/

/-- Units with a sign and a mark for base sixteen before `body`, behind blanks. -/
def MarkedBy (units : List CodeUnit) (s : Sign) (m : Mark) (body : List CodeUnit) : Prop :=
  m ≠ .none ∧ ∃ before, (∀ u ∈ before, CodeUnit.isBlank u = true) ∧ units = before ++ (s.units ++ (m.units ++ body))

/-- There is no blank, no sign and no mark before the digits. -/
def StartsBare (body : List CodeUnit) : Prop :=
  blanks body = 0 ∧ sign body = (false, 0) ∧ hexMark body = (16, 0)

/-- A mark is neither a sign nor a blank. -/
theorem Mark.head_units (marked : m ≠ .none) : ∀ u ∈ (m.units ++ body).head?,
    u.toNat ≠ '-'.toNat ∧ u.toNat ≠ '+'.toNat ∧ CodeUnit.isBlank u = false := by
  intro u mem
  cases m with
  | none => exact absurd rfl marked
  | dollar | smallX | capitalX =>
    cases mem
    decide

/-- A mark that is there is found. -/
theorem foundBy_of_marked (blank : ∀ u ∈ before, CodeUnit.isBlank u = true) (marked : m ≠ .none) :
    FoundBy radixMark before s m m.units body := by
  refine foundBy_of_head blank (Mark.head_units marked) ?_
  cases m with
  | none => exact absurd rfl marked
  | dollar | smallX | capitalX => rfl

/-- Blanks are dropped up to a sign or a mark. -/
theorem MarkedBy.dropWhile_isBlank (marked : MarkedBy units s m body) :
    units.dropWhile CodeUnit.isBlank = s.units ++ (m.units ++ body) := by
  obtain ⟨marked, before, blank, rfl⟩ := marked
  rw [List.dropWhile_append_of_pos blank]
  -- whichever comes first, the sign or the mark, is no blank
  have head : ∀ u ∈ (s.units ++ (m.units ++ body)).head?, CodeUnit.isBlank u = false := by
    intro u mem
    cases s with
    | plus | minus =>
      cases mem
      decide
    | none => exact (Mark.head_units marked u mem).2.2
  cases tail : s.units ++ (m.units ++ body) with
  | nil => rfl
  | cons u rest =>
    rw [tail] at head
    rw [List.dropWhile_cons_of_neg (by simp [head u rfl])]

/-! ### Scans that go on alike -/

/-- Of units that a scan has found the start of, it reads the digits that come next, if blanks follow them. -/
theorem FoundBy.whole?_scanWide (found : FoundBy mark before s m lead body) :
    whole? (before ++ (s.units ++ (lead ++ body)))
      (Numeral.scanWide bits mark (before ++ (s.units ++ (lead ++ body)))) =
      match digitRun m.radix (limit bits m.radix s.isMinus) 0 body with
      | .error _ => none
      | .ok (size, count) =>
        if count ≠ 0 ∧ (body.drop count).all CodeUnit.isBlank then
          some (if s.isMinus then -interpret bits m.radix size else interpret bits m.radix size)
        else none := by
  rw [found.scanWide]
  cases digitRun m.radix (limit bits m.radix s.isMinus) 0 body with
  | error n => rfl
  | ok scanned =>
    obtain ⟨size, count⟩ := scanned
    -- the scan stops behind the digits, and what is left there is all blanks or not
    have behind : (before ++ (s.units ++ (lead ++ body))).drop
        (before.length + s.units.length + lead.length + count) = body.drop count := by
      rw [← List.drop_drop, ← List.drop_drop, ← List.drop_drop, List.drop_left, List.drop_left, List.drop_left]
    by_cases none : count = 0
    · simp [none, whole?]
    · simp [none, whole?, behind]

/-- Two scans that have found the same sign and the same radix, and go on with the same units, read the same. -/
theorem FoundBy.whole?_scan_congr (a : FoundBy mark before s m lead body) (bits : Nat)
    (b : FoundBy mark' before' s m lead' body) :
    whole? (before ++ (s.units ++ (lead ++ body))) (scan bits mark (before ++ (s.units ++ (lead ++ body)))) =
      whole? (before' ++ (s.units ++ (lead' ++ body)))
        (scan bits mark' (before' ++ (s.units ++ (lead' ++ body)))) := by
  ext n
  rw [whole?_scan_eq_some_iff, whole?_scan_eq_some_iff, a.whole?_scanWide, b.whole?_scanWide]

/-- A scan that reads whole units has found its mark right before digits. -/
theorem FoundBy.startsBare_of_whole? (found : FoundBy mark before s .dollar lead body) {n : Int}
    (h : whole? (before ++ (s.units ++ (lead ++ body)))
      (scan bits mark (before ++ (s.units ++ (lead ++ body)))) = some n) : StartsBare body := by
  have wide := (whole?_scan_eq_some_iff.mp h).1
  cases scanned : Numeral.scanWide bits mark (before ++ (s.units ++ (lead ++ body))) with
  | error k =>
    rw [scanned] at wide
    cases wide
  | ok result =>
    obtain ⟨value, stop⟩ := result
    obtain ⟨w, rest, rfl, dollar, rfl, rfl, -, -⟩ := found.exists_word scanned
    have parts : before ++ (w.sign.units ++ (lead ++ (w.digits ++ rest))) =
        before ++ (w.sign.units ++ (lead ++ w.digits)) ++ rest := by
      simp only [List.append_assoc]
    rw [scanned, whole?, parts, List.drop_left] at wide
    split at wide
    · rename_i after
      -- the digits end with the units or at a blank
      have ends : ∀ u ∈ rest.head?, CodeUnit.isBlank u = true := by
        intro u mem
        exact List.all_eq_true.mp after u (List.mem_of_mem_head? mem)
      -- the same digits, taken for a numeral that has nothing before them
      let bare : Word := ⟨.none, .dollar, w.digits, w.digits_ne_nil, dollar ▸ w.isDigit⟩
      have found : FoundBy hexMark [] .none .dollar [] (w.digits ++ rest) :=
        Word.foundBy_bare (w := bare) (show Mark.dollar ≠ .none by decide) (List.forall_mem_nil _) ends
      exact ⟨found.start, found.signed, found.marked⟩
    · cases wide

end Numeral

namespace Reading

open Numeral

variable {t : Text} {s : Sign} {m : Mark} {body units : List CodeUnit}

/-! ### The two readings told by numerals -/

/-- The numerals that units are read as in base sixteen. -/
theorem whole?_scan_hexMark_map_eq_some_iff {v : Whole .integer} :
    (whole? units (scan 32 hexMark units)).map (Whole.ofInt .integer) = some v ↔
      ∃ w : Word, w.BareIn units ∧ w.Fits .integer ∧ w.Denotes v := by
  -- base sixteen has one limit, as wide as the patterns of the kind
  have fits : ∀ w : Word, w.BareIn units → (w.size ≤ limit 32 16 w.sign.isMinus ↔ w.Fits .integer) := by
    intro w bare
    rw [← Mark.radix_of_ne bare.1]
    exact Word.le_limit_iff_fits (k := .integer) rfl
  rw [Option.map_eq_some_iff]
  simp only [whole?_scan_eq_some_iff, whole?_scanWide_hexMark_eq_some_iff]
  constructor
  · rintro ⟨n, ⟨⟨w, bare, le, rfl⟩, -⟩, cut⟩
    have fits := (fits w bare).mp le
    exact ⟨w, bare, fits, (Word.ofInt_valueIn_eq_iff fits).mp cut⟩
  · rintro ⟨w, bare, fit, denotes⟩
    exact ⟨_, ⟨⟨w, bare, (fits w bare).mpr fit, rfl⟩, place_of_fits fit⟩, (Word.ofInt_valueIn_eq_iff fit).mpr denotes⟩

/-- Without a dollar sign before everything else, the whole text is read in base sixteen. -/
theorem hexadecimal_read?_of_not_dollar (other : startsWith '$' (t.units.dropWhile CodeUnit.isBlank) = false) :
    hexadecimal.read? t = (whole? t.units (scan 32 hexMark t.units)).map (Whole.ofInt .integer) := by
  unfold hexadecimal
  dsimp only
  rw [other, if_neg Bool.false_ne_true]

/-- A dollar sign before everything else is taken off. -/
theorem hexadecimal_read?_of_dollar (dollar : t.units.dropWhile CodeUnit.isBlank = 0x24 :: body) :
    hexadecimal.read? t = (whole? body (scan 32 hexMark body)).map (Whole.ofInt .integer) := by
  unfold hexadecimal
  dsimp only
  rw [dollar]
  rfl

/-! ### Where the two readings agree -/

/-- Readings that find the same in a text give the same values. -/
theorem strict_ok_congr {α : Type} {a b : Reading α} (same : a.read? t = b.read? t) (v : α) :
    a.strict t = .ok v ↔ b.strict t = .ok v := by
  rw [strict_eq_ok_iff, strict_eq_ok_iff, same]

/-- A zero and an x are found by both. -/
theorem hexadecimal_read?_of_x (marked : MarkedBy t.units s m body) (x : m ≠ .dollar) :
    hexadecimal.read? t = integer.read? t := by
  have drop := marked.dropWhile_isBlank
  obtain ⟨marked, before, blank, units⟩ := marked
  have hex : FoundBy hexMark before s m m.units body := by
    refine foundBy_of_head blank (Mark.head_units marked) ?_
    cases m with
    | none => exact absurd rfl marked
    | dollar => exact absurd rfl x
    | smallX | capitalX => rfl
  -- the first unit is a sign or a zero
  have other : startsWith '$' (t.units.dropWhile CodeUnit.isBlank) = false := by
    rw [drop]
    cases s with
    | plus | minus => rfl
    | none =>
      cases m with
      | none => exact absurd rfl marked
      | dollar => exact absurd rfl x
      | smallX | capitalX => rfl
  rw [hexadecimal_read?_of_not_dollar other, units, hex.whole?_scan_congr 32 (foundBy_of_marked blank marked), ← units]
  rfl

/-- Behind a sign a dollar sign is no digit. -/
theorem hexadecimal_read?_of_signed_dollar (marked : MarkedBy t.units s .dollar body) (signed : s ≠ .none) :
    hexadecimal.read? t = none := by
  have drop := marked.dropWhile_isBlank
  obtain ⟨marked, before, blank, units⟩ := marked
  have hex : FoundBy hexMark before s .dollar [] (0x24 :: body) :=
    foundBy_of_head blank (Mark.head_units (m := .dollar) marked) rfl
  have other : startsWith '$' (t.units.dropWhile CodeUnit.isBlank) = false := by
    rw [drop]
    cases s with
    | plus | minus => rfl
    | none => exact absurd rfl signed
  -- the digits would have to start at the dollar sign
  have noDigit : whole? (before ++ (s.units ++ ([] ++ 0x24 :: body)))
      (scanWide 32 hexMark (before ++ (s.units ++ ([] ++ 0x24 :: body)))) = none := hex.whole?_scanWide
  rw [hexadecimal_read?_of_not_dollar other, units, Option.map_eq_none_iff, Option.eq_none_iff_forall_ne_some]
  intro n whole
  exact absurd (noDigit.symm.trans (whole?_scan_eq_some_iff.mp whole).1) nofun

section

variable (marked : MarkedBy t.units .none .dollar body)

include marked

/-- A dollar sign right before its digits is in its place for both. -/
theorem hexadecimal_read?_of_bare (bare : StartsBare body) : hexadecimal.read? t = integer.read? t := by
  have dollar : t.units.dropWhile CodeUnit.isBlank = 0x24 :: body := marked.dropWhile_isBlank
  obtain ⟨marked, before, blank, units⟩ := marked
  have hex : FoundBy hexMark [] .none .dollar [] body := ⟨bare.1, bare.2.1, bare.2.2⟩
  have same := hex.whole?_scan_congr 32 (foundBy_of_marked blank marked)
  rw [← units] at same
  rw [hexadecimal_read?_of_dollar dollar]
  exact congrArg (Option.map (Whole.ofInt .integer)) same

/-- With something else between the dollar sign and the digits, the dollar sign is no mark of the digits. -/
theorem integer_read?_of_not_bare (apart : ¬ StartsBare body) : integer.read? t = none := by
  obtain ⟨marked, before, blank, units⟩ := marked
  show (whole? t.units (scan 32 radixMark t.units)).map _ = none
  rw [units, Option.map_eq_none_iff, Option.eq_none_iff_forall_ne_some]
  intro n whole
  -- a text that is read has its digits right behind the mark
  exact apart ((foundBy_of_marked blank marked).startsBare_of_whole? whole)

/-- Behind a dollar sign a numeral is read as it is without one. -/
theorem hexadecimal_strict_of_dollar (v : Whole .integer) :
    hexadecimal.strict t = .ok v ↔ ∃ w : Word, w.BareIn body ∧ w.Fits .integer ∧ w.Denotes v := by
  have dollar : t.units.dropWhile CodeUnit.isBlank = 0x24 :: body := marked.dropWhile_isBlank
  rw [strict_eq_ok_iff, hexadecimal_read?_of_dollar dollar, whole?_scan_hexMark_map_eq_some_iff]

end

/-- **A marked text is read in base sixteen as it is read by its mark**, if the mark is a zero and an x, or a dollar
    sign without a sign before it and with nothing between it and the digits.  Behind a sign a dollar sign is refused
    in base sixteen.  And a dollar sign that is followed by a blank, a sign or a zero and an x is refused as a mark,
    and taken off in base sixteen, with a numeral to be read behind it. -/
theorem hexadecimal_agrees_unless_detached (marked : MarkedBy t.units s m body) :
    (m ≠ .dollar ∨ s = .none ∧ StartsBare body →
      ∀ v, hexadecimal.strict t = .ok v ↔ integer.strict t = .ok v) ∧
    (m = .dollar → s ≠ .none → hexadecimal.strict t = .error (.malformed .hexadecimal t)) ∧
    (m = .dollar → s = .none → ¬ StartsBare body → integer.strict t = .error (.malformed .integer t) ∧
      ∀ v, hexadecimal.strict t = .ok v ↔ ∃ w : Word, w.BareIn body ∧ w.Fits .integer ∧ w.Denotes v) := by
  refine ⟨?_, ?_, ?_⟩
  · rintro (x | ⟨rfl, bare⟩)
    · exact strict_ok_congr (hexadecimal_read?_of_x marked x)
    · -- a dollar sign that is the mark, or another mark after all
      by_cases dollar : m = .dollar
      · subst dollar
        exact strict_ok_congr (hexadecimal_read?_of_bare marked bare)
      · exact strict_ok_congr (hexadecimal_read?_of_x marked dollar)
  · rintro rfl signed
    exact strict_of_read?_eq_none (hexadecimal_read?_of_signed_dollar marked signed)
  · rintro rfl rfl apart
    exact ⟨strict_of_read?_eq_none (integer_read?_of_not_bare marked apart), hexadecimal_strict_of_dollar marked⟩

/-- A dollar sign with a numeral of its own behind it. -/
theorem hexadecimal_reads_behind_dollar :
    let t := Text.ofString "$ -0x1F"
    let body := (Text.ofString " -0x1F").units
    MarkedBy t.units .none .dollar body ∧ ¬ StartsBare body ∧ integer.strict t = .error (.malformed .integer t) ∧
      hexadecimal.strict t = .ok ⟨-31⟩ := by
  intro t body
  have marked : MarkedBy t.units .none .dollar body := ⟨nofun, [], List.forall_mem_nil _, rfl⟩
  have apart : ¬ StartsBare body := by
    rintro ⟨blanks, -, -⟩
    exact absurd blanks (by decide)
  have outcome := (hexadecimal_agrees_unless_detached marked).2.2 rfl rfl apart
  let w : Word := ⟨.minus, .smallX, (Text.ofString "1F").units, by decide, List.all_eq_true.mp rfl⟩
  have bare : w.BareIn body := ⟨nofun, [0x20], [], List.all_eq_true.mp rfl, List.forall_mem_nil _, rfl⟩
  have denotes : w.Denotes (⟨-31⟩ : Whole .integer) := by decide
  exact ⟨marked, apart, outcome.1, (outcome.2 ⟨-31⟩).mpr ⟨w, bare, by decide, denotes⟩⟩

/-- A sign before a dollar sign is read by the mark only, and behind it in base sixteen only. -/
theorem hexadecimal_refuses_signed_dollar :
    let t := Text.ofString "-$FF"
    let t' := Text.ofString "$-FF"
    MarkedBy t.units .minus .dollar (Text.ofString "FF").units ∧
      hexadecimal.strict t = .error (.malformed .hexadecimal t) ∧ integer.strict t = .ok ⟨-255⟩ ∧
      hexadecimal.strict t' = .ok ⟨-255⟩ ∧ integer.strict t' = .error (.malformed .integer t') ∧
      ¬ ∀ (t : Text) (s : Sign) (m : Mark) (body : List CodeUnit), MarkedBy t.units s m body →
        ∀ v, hexadecimal.strict t = .ok v ↔ integer.strict t = .ok v := by
  intro t t'
  have marked : MarkedBy t.units .minus .dollar (Text.ofString "FF").units :=
    ⟨nofun, [], List.forall_mem_nil _, rfl⟩
  have refused : hexadecimal.strict t = .error (.malformed .hexadecimal t) := by decide +kernel
  have read : integer.strict t = .ok ⟨-255⟩ := by decide +kernel
  refine ⟨marked, refused, read, by decide +kernel, by decide +kernel, ?_⟩
  -- the text with the sign first is read by the mark, and so should be in base sixteen
  intro agree
  have ok := (agree t _ _ _ marked ⟨-255⟩).mpr read
  rw [refused] at ok
  cases ok

end Reading

end SystemUnit
