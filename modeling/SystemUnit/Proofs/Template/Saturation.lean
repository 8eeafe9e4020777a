import SystemUnit.Proofs.Template.Counts
import SystemUnit.Proofs.Numeral.Written

namespace SystemUnit

/-!
# Counts that are cut off

A count is read digit by digit from a position on, and cut off at the greatest count with each digit.  What was cut off
once would be no less with more digits, and is cut off again; what was not is exact.  So it is all the same as reading
the whole run of digits and cutting off its number once.

* `DigitRun`, `exists_digitRun` — the digits from a position on, as many as there are;
* `CountLoop`, `DigitRun.countLoop` — the loop over positions, and what it comes to;
* `DigitRun.scanCount_drop` — a count is read up to the end of its digits;
* `scanCount_zeros_countText` — a count that is written is read back, whatever zeros are put before it;
* `scanCount_saturates` — reading at any position, and reading back.
-/

variable {cs rest : List Char} {start stop other v : Nat} {c : Char}

/-! ### Runs of digits -/

/-- From `start` up to `stop` all characters are digits, and at `stop` there is none. -/
structure DigitRun (cs : List Char) (start stop : Nat) : Prop where
  start_le : start ≤ stop
  digit : ∀ i, start ≤ i → i < stop → ∃ c ∈ cs[i]?, c.isDigit = true
  ends : ∀ c ∈ cs[stop]?, c.isDigit = false

namespace DigitRun

/-- A run that ended earlier would end at a digit. -/
theorem le (h : DigitRun cs start stop) (h' : DigitRun cs start other) : stop ≤ other := by
  by_contra later
  obtain ⟨c, at_other, digit⟩ := h.digit other h'.start_le (Nat.lt_of_not_le later)
  rw [h'.ends c at_other] at digit
  cases digit

theorem unique (h : DigitRun cs start stop) (h' : DigitRun cs start other) : stop = other :=
  Nat.le_antisymm (h.le h') (h'.le h)

theorem iff_eq (h : DigitRun cs start stop) : DigitRun cs start other ↔ other = stop := by
  constructor
  · intro h'
    exact h'.unique h
  · rintro rfl
    exact h

/-- The empty run. -/
theorem self_iff : DigitRun cs start start ↔ ∀ c ∈ cs[start]?, c.isDigit = false :=
  ⟨DigitRun.ends, fun none => ⟨Nat.le_refl start, fun _ le lt => absurd lt (Nat.not_lt.mpr le), none⟩⟩

/-- A run is empty exactly if there is no digit to begin with. -/
theorem eq_start_iff (h : DigitRun cs start stop) : stop = start ↔ ∀ c ∈ cs[start]?, c.isDigit = false := by
  rw [← self_iff, h.iff_eq, eq_comm]

/-- A run ends in the text, or begins behind it. -/
theorem le_length (h : DigitRun cs start stop) : stop ≤ max start cs.length := by
  by_contra outside
  obtain ⟨c, at_last, -⟩ := h.digit (stop - 1) (by omega) (by omega)
  rw [List.getElem?_eq_none (by omega)] at at_last
  cases at_last

/-- A digit in front makes a run longer. -/
theorem cons (at_start : c ∈ cs[start]?) (digit : c.isDigit = true) (h : DigitRun cs (start + 1) stop) :
    DigitRun cs start stop := by
  refine ⟨Nat.le_of_succ_le h.start_le, fun i le lt => ?_, h.ends⟩
  rcases Nat.eq_or_lt_of_le le with rfl | gt
  · exact ⟨c, at_start, digit⟩
  · exact h.digit i gt lt

/-- A run that is not empty begins with a digit, and behind it the run goes on. -/
theorem exists_digit (h : DigitRun cs start stop) (lt : start < stop) :
    ∃ c ∈ cs[start]?, c.isDigit = true ∧ DigitRun cs (start + 1) stop := by
  obtain ⟨c, at_start, digit⟩ := h.digit start (Nat.le_refl start) lt
  exact ⟨c, at_start, digit, lt, fun i le => h.digit i (Nat.le_of_succ_le le), h.ends⟩

/-- The characters of a run are digits. -/
theorem isDigit_of_mem (h : DigitRun cs start stop) (mem : c ∈ cs.extract start stop) : c.isDigit = true := by
  obtain ⟨i, at_i⟩ := List.mem_iff_getElem?.mp mem
  rw [List.extract_eq_take_drop, List.getElem?_take, Option.ite_none_right_eq_some, List.getElem?_drop] at at_i
  obtain ⟨d, at_d, digit⟩ := h.digit (start + i) (by omega) (by omega)
  rw [Option.mem_def, at_i.2, Option.some.injEq] at at_d
  rwa [at_d]

end DigitRun

/-- **From every position on there is a run of digits**, behind the end of the text an empty one. -/
theorem exists_digitRun (cs : List Char) (start : Nat) : ∃ stop, DigitRun cs start stop := by
  induction left : cs.length - start generalizing start with
  | zero =>
    refine ⟨start, DigitRun.self_iff.mpr ?_⟩
    rw [List.getElem?_eq_none (by omega)]
    nofun
  | succ left ih =>
    have at_start : cs[start]? = some cs[start] := List.getElem?_eq_getElem (by omega)
    -- the run goes on with a digit, and ends at what is none
    by_cases digit : cs[start].isDigit = true
    · obtain ⟨stop, run⟩ := ih (start + 1) (by omega)
      exact ⟨stop, run.cons at_start digit⟩
    · refine ⟨start, DigitRun.self_iff.mpr ?_⟩
      rw [at_start]
      rintro c ⟨⟩
      simpa using digit

theorem drop_eq_extract_append (le : start ≤ stop) (cs : List Char) :
    cs.drop start = cs.extract start stop ++ cs.drop stop := by
  rw [← List.take_append_drop (stop - start) (cs.drop start), List.drop_drop, Nat.add_sub_cancel' le]

/-- Behind its first character a part of a text is the part from the next one on. -/
theorem extract_eq_cons (at_start : c ∈ cs[start]?) (lt : start < stop) :
    cs.extract start stop = c :: cs.extract (start + 1) stop := by
  obtain ⟨inside, rfl⟩ := List.getElem?_eq_some_iff.mp at_start
  have length : stop - start = stop - (start + 1) + 1 := by omega
  rw [List.extract_eq_take_drop, List.drop_eq_getElem_cons inside, length, List.take_succ_cons]

/-! ### The loop over positions -/

/-- A loop that goes on from a position with a value as long as there is a digit, multiplies the value by ten and adds
    the digit, cuts both off at the greatest count, and stops at a position with a value. -/
inductive CountLoop (cs : List Char) : Nat → Nat → Nat → Nat → Prop where
  | stop {pos v : Nat} (none : ∀ c ∈ cs[pos]?, c.isDigit = false) : CountLoop cs pos v pos v
  | digit {pos v last result : Nat} {c : Char} (here : c ∈ cs[pos]?) (digit : c.isDigit = true)
      (more : CountLoop cs (pos + 1) (min (min (v * 10) greatestCount + (c.toNat - 0x30)) greatestCount) last result) :
      CountLoop cs pos v last result

theorem CountLoop.unique {pos last last' result result' : Nat} (h : CountLoop cs pos v last result)
    (h' : CountLoop cs pos v last' result') : last = last' ∧ result = result' := by
  induction h with
  | stop none =>
    cases h' with
    | stop => exact ⟨rfl, rfl⟩
    | digit here digit => rw [none _ here] at digit; cases digit
  | digit here digit _ ih =>
    cases h' with
    | stop none => rw [none _ here] at digit; cases digit
    | digit here' _ more' =>
      cases Option.mem_unique here here'
      exact ih more'

/-- **The loop comes to the end of the run, with the number of the run cut off.**  The value is the number so far cut
    off, at every position. -/
theorem DigitRun.countLoop (run : DigitRun cs start stop) (v : Nat) :
    CountLoop cs start (min v greatestCount) stop
      (min ((cs.extract start stop).foldl (fun v c => v * 10 + (c.toNat - 0x30)) v) greatestCount) := by
  -- induction on what is left of the run, for every number so far
  induction left : stop - start generalizing start v with
  | zero =>
    obtain rfl : start = stop := Nat.le_antisymm run.start_le (Nat.sub_eq_zero_iff_le.mp left)
    rw [List.extract_eq_take_drop, left]
    exact .stop run.ends
  | succ left ih =>
    obtain ⟨c, here, digit, tail⟩ := run.exists_digit (by omega)
    -- a number that was cut off before is cut off again, and the product need not be cut off by itself
    have step : min (min (min v greatestCount * 10) greatestCount + (c.toNat - 0x30)) greatestCount =
        min (v * 10 + (c.toNat - 0x30)) greatestCount := by omega
    refine .digit here digit ?_
    rw [step, extract_eq_cons here (by omega)]
    exact ih tail _ (by omega)

/-- The loop from zero on comes to the number of the run cut off, and to nothing else. -/
theorem DigitRun.countLoop_iff (run : DigitRun cs start stop) {last result : Nat} :
    CountLoop cs start 0 last result ↔
      last = stop ∧ result = min (Digits.wordValue (cs.extract start stop)) greatestCount := by
  have loop : CountLoop cs start 0 stop (min (Digits.wordValue (cs.extract start stop)) greatestCount) := by
    rw [Digits.wordValue, Digits.value, List.foldl_map]
    exact run.countLoop 0
  constructor
  · intro h
    exact h.unique loop
  · rintro ⟨rfl, rfl⟩
    exact loop

/-! ### Reading a count -/

/-- **A count is read up to the end of its digits**, cut off at the greatest count. -/
theorem DigitRun.scanCount_drop (run : DigitRun cs start stop) :
    (scanCount (cs.drop start)).1.map UInt64.toNat =
        (if stop = start then none else some (min (Digits.wordValue (cs.extract start stop)) greatestCount)) ∧
      (scanCount (cs.drop start)).2 = cs.drop stop := by
  have ends : StartsWithout Char.isDigit (cs.drop stop) := by
    rw [StartsWithout, List.head?_drop]
    exact run.ends
  -- no digits are no count, and not a count of zero
  by_cases empty : stop = start
  · rw [if_pos empty, ← empty, scanCount_of_startsWithout ends]
    exact ⟨rfl, rfl⟩
  · have lt : start < stop := Nat.lt_of_le_of_ne run.start_le (Ne.symm empty)
    have ne : cs.extract start stop ≠ [] := by
      obtain ⟨c, here, -⟩ := run.exists_digit lt
      rw [extract_eq_cons here lt]
      exact List.cons_ne_nil _ _
    have fits := Nat.lt_succ_of_le (saturatedValue_le (cs.extract start stop))
    rw [if_neg empty, drop_eq_extract_append run.start_le, scanCount_append (fun c mem => run.isDigit_of_mem mem) ne ends,
      Option.map_some, UInt64.toNat_ofNat_of_lt' fits, saturatedValue_eq_min]
    exact ⟨rfl, rfl⟩

/-- A count that is written is read back, whatever zeros are put before it. -/
theorem scanCount_zeros_countText (zeros : Nat) (n : UInt64) (h : StartsWithout Char.isDigit rest) :
    scanCount (List.replicate zeros '0' ++ countText n ++ rest) = (some n, rest) := by
  have digits : ∀ c ∈ List.replicate zeros '0' ++ countText n, c.isDigit = true := by
    intro c mem
    rcases List.mem_append.mp mem with zero | digit
    · rw [List.eq_of_mem_replicate zero]
      rfl
    · exact Digits.isDigit_of_mem_decimal digit
  have ne : List.replicate zeros '0' ++ countText n ≠ [] :=
    List.append_ne_nil_of_right_ne_nil _ (Digits.decimal_ne_nil _)
  -- zeros at the front do not count
  have value : Digits.wordValue (List.replicate zeros '0' ++ countText n) = n.toNat := by
    rw [Digits.wordValue_zeros_append, countText, Digits.wordValue_decimal]
  exact scanCount_of_wordValue digits ne h value

/-- **Reading a count is exact up to the greatest one.**  From every position of a text on there is one run of digits,
    however long and with whatever zeros in front.  A loop over the positions that cuts off each product and each sum
    stops at its end with its number, or with the greatest count if that is less.  This is what is read, and the end is
    where reading goes on; where there is no digit nothing is read, and reading goes on at the same position.  A count
    that is written in decimal, behind zeros too, is read back. -/
theorem scanCount_saturates :
    (∀ (cs : List Char) (start : Nat), ∃ stop,
      let value := min (Nat.ofDigits 10 ((cs.extract start stop).map fun c => c.toNat - 0x30).reverse) (2 ^ 64 - 1)
      (∀ other, DigitRun cs start other ↔ other = stop) ∧
      (∀ last result, CountLoop cs start 0 last result ↔ last = stop ∧ result = value) ∧
      (stop = start ↔ ∀ c ∈ cs[start]?, c.isDigit = false) ∧ stop ≤ max start cs.length ∧
      (scanCount (cs.drop start)).1.map UInt64.toNat = (if stop = start then none else some value) ∧
      (scanCount (cs.drop start)).2 = cs.drop stop) ∧
    ∀ (zeros : Nat) (n : UInt64) (rest : List Char), StartsWithout Char.isDigit rest →
      scanCount (List.replicate zeros '0' ++ countText n ++ rest) = (some n, rest) := by
  refine ⟨fun cs start => ?_, fun zeros n rest ends => scanCount_zeros_countText zeros n ends⟩
  obtain ⟨stop, run⟩ := exists_digitRun cs start
  -- the greatest count, as a power
  have greatest : 2 ^ 64 - 1 = greatestCount := by decide
  refine ⟨stop, ?_⟩
  rw [← Digits.wordValue_eq_ofDigits, greatest]
  exact ⟨fun other => run.iff_eq, fun last result => run.countLoop_iff, run.eq_start_iff, run.le_length,
    run.scanCount_drop⟩

/-- The least number that is cut off, behind two zeros, and the greatest one that is not. -/
theorem scanCount_saturates_at_limit :
    let cs := ['a', '0', '0', '1', '8', '4', '4', '6', '7', '4', '4', '0', '7', '3', '7', '0', '9', '5', '5', '1', '6',
      '1', '6', '.', '5']
    (∀ c ∈ cs[0]?, c.isDigit = false) ∧ scanCount cs = (none, cs) ∧
      DigitRun cs 1 23 ∧ (scanCount (cs.drop 1)).1.map UInt64.toNat = some (2 ^ 64 - 1) ∧
      (scanCount (cs.drop 1)).2 = ['.', '5'] ∧ StartsWithout Char.isDigit ['.', '5'] ∧
      scanCount (['0', '0'] ++ countText 0xFFFFFFFFFFFFFFFF ++ ['.', '5']) = (some 0xFFFFFFFFFFFFFFFF, ['.', '5']) := by
  intro cs
  have none : ∀ c ∈ cs[0]?, c.isDigit = false := by
    rintro c ⟨⟩
    rfl
  have digits : ∀ i < 23, 1 ≤ i → cs[i]?.any Char.isDigit = true := by decide
  have run : DigitRun cs 1 23 := by
    refine ⟨by decide, fun i le lt => ?_, ?_⟩
    · exact (Option.any_eq_true _ _).mp (digits i lt le)
    · rintro c ⟨⟩
      rfl
  have ends : StartsWithout Char.isDigit ['.', '5'] := startsWithout_cons.mpr rfl
  obtain ⟨read, written⟩ := scanCount_saturates
  refine ⟨none, ?_, run, ?_, ?_, ends, written 2 0xFFFFFFFFFFFFFFFF ['.', '5'] ends⟩
  -- at the letter the run is empty, at the first zero it is the one above
  · obtain ⟨stop, -, -, empty, -, count, behind⟩ := read cs 0
    rw [if_pos (empty.mpr none), Option.map_eq_none_iff] at count
    rw [empty.mpr none] at behind
    exact Prod.ext count behind
  · obtain ⟨stop, runs, -, -, -, count, -⟩ := read cs 1
    obtain rfl := (runs 23).mp run
    rw [count]
    decide
  · obtain ⟨stop, runs, -, -, -, -, behind⟩ := read cs 1
    obtain rfl := (runs 23).mp run
    rw [behind]
    rfl

end SystemUnit
