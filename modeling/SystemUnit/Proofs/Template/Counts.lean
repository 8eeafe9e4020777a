import SystemUnit.Template.FieldSpec
import SystemUnit.Proofs.Numeral.Decimal

namespace SystemUnit

/-!
# Counts in texts

A width is written in decimal, and a precision behind a point.  A reader takes as many digits as there are, so
a count is read back where what follows it does not go on with a digit.

* `StartsWithout` — texts that do not start with a character of a kind;
* `saturatedValue_eq_min` — the value of a run of digits, cut off at the greatest count;
* `scanCount_widthText`, `scanPrecision_precisionText` — widths and precisions are read back;
* `scanCount_ne_zero` — a run of digits that does not start with a zero is no count of zero.
-/

variable {kind : Char → Bool} {c : Char} {cs rest word : List Char} {width precision : Option UInt64}

/-! ### Starts of texts -/

/-- Whether no character of a kind stands at the start of a text. -/
def StartsWithout (kind : Char → Bool) (cs : List Char) : Prop := ∀ c ∈ cs.head?, kind c = false

@[simp] theorem startsWithout_nil : StartsWithout kind [] := fun _ h => nomatch h

/-- A text that is not empty starts with its first character. -/
@[simp] theorem startsWithout_cons : StartsWithout kind (c :: cs) ↔ kind c = false := by
  simp [StartsWithout]

/-- Where no character is of a kind, the first one is not. -/
theorem startsWithout_of_mem (none : ∀ c ∈ cs, kind c = false) : StartsWithout kind cs :=
  fun c hc => none c (List.mem_of_mem_head? hc)

/-- Behind other characters, or behind none, stands none of the kind. -/
theorem StartsWithout.append (none : ∀ c ∈ cs, kind c = false) (h : StartsWithout kind rest) :
    StartsWithout kind (cs ++ rest) := by
  cases cs with
  | nil => exact h
  | cons c cs => exact startsWithout_cons.mpr (none c List.mem_cons_self)

/-- What does not start with a character of a kind has no run of them there. -/
theorem takeWhile_eq_nil (h : StartsWithout kind cs) : cs.takeWhile kind = [] := by
  cases cs with
  | nil => rfl
  | cons c cs => rw [List.takeWhile_cons_of_neg (by simpa using h)]

/-- So there is nothing to pass over. -/
theorem dropWhile_eq_self (h : StartsWithout kind cs) : cs.dropWhile kind = cs := by
  cases cs with
  | nil => rfl
  | cons c cs => rw [List.dropWhile_cons_of_neg (by simpa using h)]

/-! ### The value of a run of digits -/

/-- **A value is cut off at the greatest count.**  It is cut off at every digit, which is the same as once at
    the end. -/
theorem saturatedValue_eq_min (word : List Char) :
    saturatedValue word = min (Digits.wordValue word) greatestCount := by
  -- the value so far is the cut one all along
  have run : ∀ (word : List Char) (v : Nat),
      word.foldl (fun v c => min (v * 10 + (c.toNat - 0x30)) greatestCount) (min v greatestCount) =
        min (word.foldl (fun v c => v * 10 + (c.toNat - 0x30)) v) greatestCount := by
    intro word
    induction word with
    | nil => intro v; rfl
    | cons c word ih =>
      intro v
      have step : min (min v greatestCount * 10 + (c.toNat - 0x30)) greatestCount =
          min (v * 10 + (c.toNat - 0x30)) greatestCount := by omega
      rw [List.foldl_cons, List.foldl_cons, step, ih]
  rw [Digits.wordValue, Digits.value, List.foldl_map, ← run word 0, Nat.zero_min]
  rfl

/-- A value that is cut off is at most the greatest count. -/
theorem saturatedValue_le (word : List Char) : saturatedValue word ≤ greatestCount := by
  rw [saturatedValue_eq_min]
  exact Nat.min_le_right _ _

/-! ### Runs of digits -/

/-- A run of digits is scanned to its end. -/
theorem scanCount_append (digits : ∀ c ∈ word, c.isDigit = true) (ne : word ≠ [])
    (h : StartsWithout Char.isDigit rest) :
    scanCount (word ++ rest) = (some (UInt64.ofNat (saturatedValue word)), rest) := by
  have run : (word ++ rest).takeWhile Char.isDigit = word := by
    rw [List.takeWhile_append_of_pos digits, takeWhile_eq_nil h, List.append_nil]
  have left : (word ++ rest).dropWhile Char.isDigit = rest := by
    rw [List.dropWhile_append_of_pos digits, dropWhile_eq_self h]
  rw [scanCount, run, left, if_neg (by simpa using ne)]

/-- Where there is no digit there is no count. -/
theorem scanCount_of_startsWithout (h : StartsWithout Char.isDigit cs) : scanCount cs = (none, cs) := by
  rw [scanCount, takeWhile_eq_nil h, dropWhile_eq_self h]
  rfl

/-- A word of digits that stands for a count is read as that count. -/
theorem scanCount_of_wordValue {n : UInt64} (digits : ∀ c ∈ word, c.isDigit = true) (ne : word ≠ [])
    (h : StartsWithout Char.isDigit rest) (value : Digits.wordValue word = n.toNat) :
    scanCount (word ++ rest) = (some n, rest) := by
  have le : n.toNat ≤ greatestCount := Nat.le_of_lt_succ n.toNat_lt
  rw [scanCount_append digits ne h, saturatedValue_eq_min, value, Nat.min_eq_left le, UInt64.ofNat_toNat]

/-- A count that is written is read back. -/
theorem scanCount_countText (n : UInt64) (h : StartsWithout Char.isDigit rest) :
    scanCount (countText n ++ rest) = (some n, rest) := by
  have digits : ∀ c ∈ countText n, c.isDigit = true := fun c hc => Digits.isDigit_of_mem_decimal hc
  exact scanCount_of_wordValue digits (Digits.decimal_ne_nil _) h (Digits.wordValue_decimal _)

/-- A run of digits that does not start with a zero is no count of zero, not even when it is cut off. -/
theorem scanCount_ne_zero (h : StartsWithout (· == '0') cs) : (scanCount cs).1 ≠ some 0 := by
  intro zero
  cases cs with
  | nil => cases zero
  | cons c cs =>
    have ne : c ≠ '0' := by simpa using h
    by_cases digit : c.isDigit
    · -- the value is positive, and cut off it is still one
      have pos := Digits.wordValue_pos digit ne (cs.takeWhile Char.isDigit)
      have value := saturatedValue_eq_min (c :: cs.takeWhile Char.isDigit)
      have le := saturatedValue_le (c :: cs.takeWhile Char.isDigit)
      have count : UInt64.ofNat (saturatedValue (c :: cs.takeWhile Char.isDigit)) = 0 := by
        simpa [scanCount, digit] using zero
      have number := congrArg UInt64.toNat count
      rw [UInt64.toNat_ofNat_of_lt' (Nat.lt_succ_of_le le), UInt64.toNat_zero] at number
      unfold greatestCount at value
      omega
    · rw [scanCount_of_startsWithout (by simpa using digit)] at zero
      cases zero

/-! ### Widths and precisions -/

/-- A width as it is written, if there is one. -/
def widthText (width : Option UInt64) : List Char := width.elim [] countText

/-- A precision as it is written, if there is one. -/
def precisionText (precision : Option UInt64) : List Char := precision.elim [] fun n => '.' :: countText n

/-- A width is written in digits. -/
theorem isDigit_of_mem_widthText (h : c ∈ widthText width) : c.isDigit = true := by
  cases width with
  | none => cases h
  | some n => exact Digits.isDigit_of_mem_decimal h

/-- A precision is written in digits, behind a point. -/
theorem mem_precisionText (h : c ∈ precisionText precision) : c = '.' ∨ c.isDigit = true := by
  cases precision with
  | none => cases h
  | some n =>
    rcases List.mem_cons.mp h with rfl | digit
    · exact .inl rfl
    · exact .inr (Digits.isDigit_of_mem_decimal digit)

/-- A width is read back, also one that is not there. -/
theorem scanCount_widthText (h : StartsWithout Char.isDigit rest) :
    scanCount (widthText width ++ rest) = (width, rest) := by
  cases width with
  | none => exact scanCount_of_startsWithout h
  | some n => exact scanCount_countText n h

/-- A precision is read back, also one that is not there. -/
theorem scanPrecision_precisionText (digit : StartsWithout Char.isDigit rest)
    (point : StartsWithout (· == '.') rest) :
    scanPrecision (precisionText precision ++ rest) = (precision, rest) := by
  cases precision with
  | none =>
    show scanPrecision rest = (none, rest)
    cases rest with
    | nil => rfl
    | cons c rest =>
      -- without a precision no point may follow, for it would begin one
      have ne : c ≠ '.' := by simpa using point
      simp [scanPrecision, ne]
  | some n =>
    show scanPrecision ('.' :: (countText n ++ rest)) = (some n, rest)
    rw [scanPrecision, scanCount_countText n digit]
    rfl

/-- A precision begins with a point, or with what follows it. -/
theorem startsWithout_precisionText (point : kind '.' = false) (h : StartsWithout kind rest) :
    StartsWithout kind (precisionText precision ++ rest) := by
  cases precision with
  | none => exact h
  | some n => exact startsWithout_cons.mpr point

/-- A width that is not zero starts with another digit. -/
theorem startsWithout_widthText (digit : ∀ c, c.isDigit = true → c ≠ '0' → kind c = false)
    (ne : width ≠ some 0) (h : StartsWithout kind rest) : StartsWithout kind (widthText width ++ rest) := by
  cases width with
  | none => exact h
  | some n =>
    -- a count that is not zero does not begin with the digit zero
    have pos : 0 < n.toNat := by
      refine Nat.pos_of_ne_zero fun zero => ne ?_
      rw [UInt64.toNat_inj.mp (zero.trans UInt64.toNat_zero.symm)]
    obtain ⟨c, cs, written, other⟩ := Digits.decimal_eq_cons pos
    have first : c.isDigit = true := by
      apply Digits.isDigit_of_mem_decimal (n := n.toNat)
      rw [written]
      exact List.mem_cons_self
    show StartsWithout kind (Digits.decimal n.toNat ++ rest)
    rw [written]
    exact startsWithout_cons.mpr (digit c first other)

end SystemUnit
