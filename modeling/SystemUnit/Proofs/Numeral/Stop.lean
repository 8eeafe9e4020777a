import SystemUnit.Proofs.Conversion.Integer

namespace SystemUnit

namespace Numeral

/-!
# Where the scan of an integer stops

A scan goes as far as what it has seen can be the start of a numeral, and the unit at which it stops decides that it
does: nothing behind that unit has been looked at.

* `stop` — the offset at which a scan ends, whether it has found a numeral or not;
* `digitRun_cons_cases` — a run of digits stops at its first unit, or goes on behind it;
* `digitRun_congr`, `scanWide_congr` — a scan that stops at a unit stops there whatever comes behind it;
* `digitRun_take` — the units before the one at which a run of digits stops are digits within the limit;
* `exists_word_of_scanWide` — the units before the one at which a scan stops are the start of a numeral;
* `scan_integer` — at 32 bits there is no number that a scan drops.
-/

variable {radix limit bits v : Nat} {digits x units : List CodeUnit} {u : CodeUnit} {c : Char}

/-- The offset at which a scan ends. -/
def stop {α : Type} : Except Nat (α × Nat) → Nat
  | .ok (_, n) => n
  | .error n => n

/-! ### Runs of digits -/

/-- Behind a digit within the limit the run goes on. -/
theorem stop_digitRun_cons {d : Nat} (code : Digits.ofCode radix u.toNat = some d) (fits : v * radix + d ≤ limit) :
    stop (digitRun radix limit v (u :: units)) = stop (digitRun radix limit (v * radix + d) units) + 1 := by
  rw [digitRun, code]
  dsimp only
  rw [if_neg (Nat.not_lt.mpr fits)]
  cases digitRun radix limit (v * radix + d) units <;> rfl

/-- A run stops at once, whatever comes behind the unit, or goes on behind a digit within the limit. -/
theorem digitRun_cons_cases (radix limit v : Nat) (u : CodeUnit) :
    (∃ run, stop run = 0 ∧ ∀ units, digitRun radix limit v (u :: units) = run) ∨
      ∃ d, Digits.ofCode radix u.toNat = some d ∧ v * radix + d ≤ limit := by
  cases code : Digits.ofCode radix u.toNat with
  | none =>
    left
    refine ⟨.ok (v, 0), rfl, fun units => ?_⟩
    rw [digitRun, code]
  | some d =>
    -- a digit that makes the number too great stops the run as well
    by_cases fits : v * radix + d ≤ limit
    · exact .inr ⟨d, rfl, fits⟩
    · left
      refine ⟨.error 0, rfl, fun units => ?_⟩
      rw [digitRun, code]
      exact if_pos (Nat.lt_of_not_le fits)

/-- A run of digits stops at one of the units, or behind them. -/
theorem stop_digitRun_le (radix limit v : Nat) (units : List CodeUnit) :
    stop (digitRun radix limit v units) ≤ units.length := by
  induction units generalizing v with
  | nil => exact Nat.le_refl 0
  | cons u units ih =>
    rcases digitRun_cons_cases radix limit v u with ⟨run, zero, ends⟩ | ⟨d, code, fits⟩
    · rw [ends, zero]
      exact Nat.zero_le _
    · rw [stop_digitRun_cons code fits]
      exact Nat.succ_le_succ (ih _)

/-- A run that stops at a unit stops there whatever comes behind it. -/
theorem digitRun_congr (y : List CodeUnit)
    (h : stop (digitRun radix limit v (digits ++ u :: x)) = digits.length) :
    digitRun radix limit v (digits ++ u :: y) = digitRun radix limit v (digits ++ u :: x) := by
  induction digits generalizing v with
  | nil =>
    rcases digitRun_cons_cases radix limit v u with ⟨run, -, ends⟩ | ⟨d, code, fits⟩
    · -- at the unit itself nothing behind it has been looked at
      exact (ends y).trans (ends x).symm
    · rw [List.nil_append, stop_digitRun_cons code fits] at h
      cases h
  | cons c digits ih =>
    rcases digitRun_cons_cases radix limit v c with ⟨run, -, ends⟩ | ⟨d, code, fits⟩
    · exact (ends _).trans (ends _).symm
    · rw [List.cons_append, stop_digitRun_cons code fits] at h
      rw [List.cons_append, List.cons_append, digitRun, digitRun, code]
      dsimp only
      rw [ih (Nat.succ.inj h)]

/-- The units before the one at which a run stops are digits, and their number is within the limit. -/
theorem digitRun_take (radix : Nat) (units : List CodeUnit) (within : v ≤ limit) :
    (∀ u ∈ units.take (stop (digitRun radix limit v units)), isDigitIn radix u = true) ∧
      (digitsOf radix (units.take (stop (digitRun radix limit v units)))).foldl (fun v d => v * radix + d) v ≤
        limit := by
  induction units generalizing v with
  | nil => exact ⟨List.forall_mem_nil _, within⟩
  | cons u units ih =>
    rcases digitRun_cons_cases radix limit v u with ⟨run, zero, ends⟩ | ⟨d, code, fits⟩
    · -- a run that stops at once has taken nothing
      rw [ends, zero]
      exact ⟨List.forall_mem_nil _, within⟩
    · obtain ⟨isDigit, le⟩ := ih fits
      rw [stop_digitRun_cons code fits, List.take_succ_cons, digitsOf_cons code]
      refine ⟨List.forall_mem_cons.mpr ⟨?_, isDigit⟩, le⟩
      rw [isDigitIn, code]
      rfl

theorem ofCode_zero (pos : 0 < radix) : Digits.ofCode radix (0x30 : CodeUnit).toNat = some 0 := by
  show Option.filter (fun d => decide (d < radix)) (some 0) = some 0
  exact Option.filter_some_pos (decide_eq_true pos)

/-- A zero is a digit of every radix. -/
theorem isDigit_zero (pos : 0 < radix) : ∀ u ∈ [(0x30 : CodeUnit)], isDigitIn radix u = true := by
  intro u mem
  rw [List.mem_singleton.mp mem, isDigitIn, ofCode_zero pos]
  rfl

/-- A zero is within every limit. -/
theorem stop_digitRun_pos (pos : 0 < radix) (zero : startsWith '0' units = true) :
    0 < stop (digitRun radix limit 0 units) := by
  obtain ⟨rest, rfl⟩ := startsWith_eq_true (u := 0x30) rfl zero
  rw [stop_digitRun_cons (ofCode_zero pos) (by omega)]
  exact Nat.succ_pos _

/-! ### Numerals -/

/-- What a text starts with is told by its first unit. -/
theorem startsWith_congr {a b : List CodeUnit} (head : a.head? = b.head?) : startsWith c a = startsWith c b := by
  rw [startsWith, startsWith, head]

/-- So is its sign. -/
theorem sign_congr {a b : List CodeUnit} (head : a.head? = b.head?) : sign a = sign b := by
  rw [sign, sign, startsWith_congr head, startsWith_congr head]

/-- Behind blanks that have been counted there is no other one. -/
theorem isBlank_eq_false_of_blanks {before rest : List CodeUnit}
    (blank : ∀ u ∈ before, CodeUnit.isBlank u = true) (count : blanks (before ++ rest) = before.length) :
    ∀ u ∈ rest.head?, CodeUnit.isBlank u = false := by
  rw [blanks, List.takeWhile_append_of_pos blank, List.length_append, Nat.add_eq_left,
    List.length_eq_zero_iff] at count
  intro u mem
  cases rest with
  | nil => cases mem
  | cons w rest =>
    cases mem
    rw [← Bool.not_eq_true]
    -- one blank more would have been counted
    intro space
    rw [List.takeWhile_cons_of_pos space] at count
    cases count

variable {before body body' : List CodeUnit} {s : Sign} {m : Mark}

/-- What is found before a body is found before another one that starts as it does. -/
theorem Found.congr (found : Found before s m body) (head : body'.head? = body.head?)
    (second : startsWith '0' body = true → body'.tail.head? = body.tail.head?) : Found before s m body' := by
  have behindMark : (m.units ++ body').head? = (m.units ++ body).head? := by
    rw [List.head?_append, List.head?_append, head]
  have behindBlanks : (s.units ++ (m.units ++ body')).head? = (s.units ++ (m.units ++ body)).head? := by
    rw [List.head?_append, behindMark, ← List.head?_append]
  refine ⟨found.blank, ?_, ?_, ?_⟩
  · apply blanks_append found.blank
    rw [behindBlanks]
    exact isBlank_eq_false_of_blanks found.blank found.start
  · rw [sign_congr behindBlanks]
    exact found.signed
  · cases m with
    | dollar | smallX | capitalX => rfl
    | none =>
      -- a mark is a zero and the letter behind it, so that two units decide
      have same : radixMark body' = radixMark body := by
        rw [radixMark, radixMark, startsWith_congr head, startsWith_congr head]
        cases zero : startsWith '0' body with
        | false => rfl
        | true => rw [startsWith_congr (second zero), startsWith_congr (second zero)]
      exact same.trans found.marked

/-- A scan stops where the run of digits does that it finds. -/
theorem Found.stop_scanWide (found : Found before s m body) :
    stop (Numeral.scanWide bits radixMark (before ++ (s.units ++ (m.units ++ body)))) =
      (before ++ (s.units ++ m.units)).length +
        stop (digitRun m.radix (Numeral.limit bits m.radix s.isMinus) 0 body) := by
  have place : (before ++ (s.units ++ m.units)).length = before.length + s.units.length + m.units.length := by
    rw [List.length_append, List.length_append, Nat.add_assoc]
  rw [found.scanWide, place]
  -- the scan stops where the run does, whether it fails there or not
  cases digitRun m.radix (Numeral.limit bits m.radix s.isMinus) 0 body with
  | error n => rfl
  | ok scanned =>
    dsimp only
    split
    · rename_i none
      rw [stop, stop, none]
      rfl
    · rfl

/-- The scan stops at one of the units, or behind them. -/
theorem stop_scanWide_le (bits : Nat) (units : List CodeUnit) :
    stop (scanWide bits radixMark units) ≤ units.length := by
  obtain ⟨before, s, m, body, rfl, found⟩ := exists_found units
  have run := stop_digitRun_le m.radix (Numeral.limit bits m.radix s.isMinus) 0 body
  rw [found.stop_scanWide]
  simp only [List.length_append] at run ⊢
  omega

/-- **A scan that stops at a unit stops there whatever comes behind it**: it has looked at nothing more. -/
theorem scanWide_congr {p : List CodeUnit} (y : List CodeUnit)
    (h : stop (scanWide bits radixMark (p ++ u :: x)) = p.length) :
    scanWide bits radixMark (p ++ u :: y) = scanWide bits radixMark (p ++ u :: x) := by
  obtain ⟨before, s, m, body, units, found⟩ := exists_found (p ++ u :: x)
  have parts : ∀ body, before ++ (s.units ++ (m.units ++ body)) = (before ++ (s.units ++ m.units)) ++ body := by
    intro body
    simp only [List.append_assoc]
  rw [units, found.stop_scanWide] at h
  -- what is found lies before the unit, and the digits behind it reach up to the unit
  have start : before ++ (s.units ++ m.units) <+: p ++ u :: x := by
    rw [units, parts]
    exact List.prefix_append _ _
  have lead : before ++ (s.units ++ m.units) <+: p :=
    List.prefix_of_prefix_length_le start (List.prefix_append _ _) (by omega)
  obtain ⟨digits, rfl⟩ := lead
  have body_eq : body = digits ++ u :: x := by
    rw [parts, List.append_assoc] at units
    exact (List.append_cancel_left units).symm
  subst body_eq
  have length : (before ++ (s.units ++ m.units) ++ digits).length =
      (before ++ (s.units ++ m.units)).length + digits.length := List.length_append
  rw [length, Nat.add_right_inj] at h
  have found' : Found before s m (digits ++ u :: y) := by
    apply found.congr
    · cases digits <;> rfl
    · intro zero
      cases digits with
      | nil => exact absurd h (Nat.ne_of_gt (stop_digitRun_pos m.radix_pos zero))
      | cons d digits => cases digits <;> rfl
  rw [List.append_assoc _ digits (u :: y), List.append_assoc _ digits (u :: x), ← parts, ← parts, found'.scanWide,
    found.scanWide, digitRun_congr y h]

/-- Digits within a limit, or none, are the start of those of a numeral. -/
theorem exists_word (s : Sign) (m : Mark) {max : Nat} (isDigit : ∀ u ∈ digits, isDigitIn m.radix u = true)
    (le : Digits.value m.radix (digitsOf m.radix digits) ≤ max) :
    ∃ w : Word, w.sign = s ∧ w.mark = m ∧ w.size ≤ max ∧ digits <+: w.digits := by
  cases digits with
  | nil =>
    -- nothing is the start of a zero
    refine ⟨⟨s, m, [0x30], List.cons_ne_nil _ _, isDigit_zero m.radix_pos⟩, rfl, rfl, ?_, List.nil_prefix⟩
    have size : Digits.value m.radix (digitsOf m.radix [0x30]) = 0 := by
      cases m <;> decide
    exact Nat.le_trans (Nat.le_of_eq size) (Nat.zero_le max)
  | cons d digits => exact ⟨⟨s, m, d :: digits, List.cons_ne_nil _ _, isDigit⟩, rfl, rfl, le, List.prefix_refl _⟩

/-- **What is before the unit at which a scan stops is the start of a numeral** with blanks before it. -/
theorem exists_word_of_scanWide (bits : Nat) (units : List CodeUnit) :
    ∃ (w : Word) (before : List CodeUnit), (∀ u ∈ before, CodeUnit.isBlank u = true) ∧
      w.size ≤ Numeral.limit bits w.mark.radix w.sign.isMinus ∧
      units.take (stop (scanWide bits radixMark units)) <+: before ++ w.units := by
  obtain ⟨before, s, m, body, rfl, found⟩ := exists_found units
  obtain ⟨isDigit, le⟩ := digitRun_take m.radix body (Nat.zero_le (Numeral.limit bits m.radix s.isMinus))
  -- the digits before the stop, or a zero where there are none, make a numeral
  obtain ⟨w, rfl, rfl, size, digits⟩ := exists_word s m isDigit le
  refine ⟨w, before, found.blank, size, ?_⟩
  have parts : ∀ body, before ++ (w.sign.units ++ (w.mark.units ++ body)) =
      (before ++ (w.sign.units ++ w.mark.units)) ++ body := by
    intro body
    simp only [List.append_assoc]
  rw [found.stop_scanWide, Word.units, parts, parts, List.take_length_add_append]
  exact (List.prefix_append_right_inj _).mpr digits

/-- At 32 bits every number that is scanned has a place in 64 bits. -/
theorem scan_integer (units : List CodeUnit) : scan 32 radixMark units = scanWide 32 radixMark units := by
  unfold scan
  cases scanned : scanWide 32 radixMark units with
  | error n => rfl
  | ok found =>
    obtain ⟨value, n⟩ := found
    obtain ⟨w, -, -, -, -, -, le, rfl⟩ := scanWide_eq_ok scanned
    -- a numeral of 32 bits is within the range, so that nothing is cut
    have fits : w.Fits .integer := (Word.le_limit_iff_fits rfl).mp le
    obtain ⟨least, greatest, -⟩ := w.valueIn_range (k := .integer) rfl fits
    dsimp only
    rw [if_pos ⟨Int.le_trans (by decide) least, Int.le_trans greatest (by decide)⟩]

end Numeral

end SystemUnit
