import SystemUnit.Text.CodePoints
import SystemUnit.Proofs.Numeral.Word
import Mathlib.Data.Nat.Digits.Lemmas

namespace SystemUnit

/-!
# Numbers written as numerals

A number is written in a radix up to sixteen, and any count of zeros may be put before its digits.  The units of this
text are digits of the radix, and with a sign and a mark before them they are a numeral of the number.

* `Digits.ofNat_eq_digits`, `Digits.length_ofNat_eq_log` — the digits of a number, and how many there are;
* `Digits.wordValue_eq_ofDigits` — the number of a word of decimal digits, place by place;
* `Digits.digitsOf_ofChars`, `Digits.isDigitIn_ofChars` — digits as characters and as units;
* `Digits.padded` — a number with zeros before its digits, and `Digits.isDigitIn_padded`;
* `Numeral.Word.ofNat`, `Numeral.Word.size_ofNat` — the numeral, and its number.
-/

namespace Digits

variable {radix n d zeros : Nat} {upper : Bool} {word : List Char} {rest : List Nat}

/-! ### The digits of a number -/

/-- Digits are pushed before others, the one of least weight first. -/
theorem push_eq_digits (two_le : 2 ≤ radix) (rest : List Nat) :
    push radix n rest = (Nat.digits radix n).reverse ++ rest := by
  fun_induction push radix n rest with
  | case1 n rest h ih =>
    rw [ih, Nat.digits_def' two_le h.2]
    simp
  | case2 n rest h =>
    have zero : n = 0 := by omega
    simp [zero]

/-- The digits of a positive number, the most significant first. -/
theorem ofNat_eq_digits (two_le : 2 ≤ radix) (ne : n ≠ 0) : ofNat radix n = (Nat.digits radix n).reverse := by
  rw [ofNat, if_neg ne, push_eq_digits two_le, List.append_nil]

/-- A number has as many digits as powers of the radix are not above it; zero has one. -/
theorem length_ofNat_eq_log (two_le : 2 ≤ radix) (n : Nat) : (ofNat radix n).length = Nat.log radix n + 1 := by
  by_cases zero : n = 0
  · simp [zero, ofNat]
  · rw [ofNat_eq_digits two_le zero, List.length_reverse, Nat.length_digits radix n two_le zero]

/-- Zeros before a word of digits do not count. -/
theorem value_zeros_append (radix zeros : Nat) (ds : List Nat) :
    value radix (List.replicate zeros 0 ++ ds) = value radix ds := by
  induction zeros with
  | zero => rfl
  | succ k ih =>
    rw [List.replicate_succ, List.cons_append, ← ih]
    simp [value]

/-- Zeros before a word of decimal digits do not count. -/
theorem wordValue_zeros_append (zeros : Nat) (word : List Char) :
    wordValue (List.replicate zeros '0' ++ word) = wordValue word := by
  rw [wordValue, List.map_append, List.map_replicate]
  exact value_zeros_append 10 zeros _

/-- The number of a word of decimal digits, each digit at its place. -/
theorem wordValue_eq_ofDigits (word : List Char) :
    wordValue word = Nat.ofDigits 10 (word.map fun c => c.toNat - 0x30).reverse := by
  rw [Nat.ofDigits_eq_foldr, List.foldr_reverse, wordValue, value]
  congr 1
  funext v d
  rw [Nat.cast_id, Nat.mul_comm, Nat.add_comm]

/-! ### Digits as characters -/

/-- The character of a digit stands for the digit, in either case. -/
theorem ofCode_char (upper : Bool) (le : radix ≤ 16) (lt : d < radix) : ofCode radix (char upper d).toNat = some d := by
  have sixteen : ∀ upper, ∀ d < 16, ofCode 16 (char upper d).toNat = some d := by decide
  -- a digit in base sixteen is one in every radix above it
  have all := sixteen upper d (by omega)
  unfold ofCode at all ⊢
  rw [Option.filter_eq_some_iff] at all ⊢
  exact ⟨all.1, by simpa using lt⟩

/-- Digits of all radices are ASCII characters. -/
theorem lt_of_isSome_ofCode {code : Nat} (digit : (ofCode radix code).isSome = true) : code < 0x80 := by
  obtain ⟨d, code_eq⟩ := Option.isSome_iff_exists.mp digit
  rw [ofCode, Option.filter_eq_some_iff] at code_eq
  by_contra large
  rw [if_neg (by omega), if_neg (by omega), if_neg (by omega)] at code_eq
  cases code_eq.1

/-- An ASCII character takes a code unit, and the unit has its code. -/
theorem units_ofChars_of_lt (ascii : ∀ c ∈ word, c.toNat < 0x80) :
    (Text.ofChars word).units = word.map (fun c => UInt16.ofNat c.toNat) ∧
      ∀ c ∈ word, (UInt16.ofNat c.toNat).toNat = c.toNat := by
  constructor
  · show word.flatMap CodeUnit.ofChar = _
    rw [List.map_eq_flatMap]
    refine List.flatMap_congr fun c mem => if_pos ?_
    exact Nat.lt_trans (ascii c mem) (by decide)
  · intro c mem
    exact UInt16.toNat_ofNat_of_lt' (Nat.lt_trans (ascii c mem) (by decide))

/-- The digits of a word are those of its units. -/
theorem digitsOf_ofChars (digits : ∀ c ∈ word, (ofCode radix c.toNat).isSome = true) :
    Numeral.digitsOf radix (Text.ofChars word).units = word.filterMap (fun c => ofCode radix c.toNat) := by
  obtain ⟨units, code⟩ := units_ofChars_of_lt fun c mem => lt_of_isSome_ofCode (digits c mem)
  rw [units, Numeral.digitsOf, List.filterMap_map]
  refine List.filterMap_congr fun c mem => ?_
  simp [code c mem]

/-- Digits as characters are digits as units. -/
theorem isDigitIn_ofChars (digits : ∀ c ∈ word, (ofCode radix c.toNat).isSome = true) :
    ∀ u ∈ (Text.ofChars word).units, Numeral.isDigitIn radix u = true := by
  obtain ⟨units, code⟩ := units_ofChars_of_lt fun c mem => lt_of_isSome_ofCode (digits c mem)
  intro u mem
  rw [units] at mem
  obtain ⟨c, mem_c, rfl⟩ := List.mem_map.mp mem
  rw [Numeral.isDigitIn, code c mem_c]
  exact digits c mem_c

/-! ### Zeros before a number -/

/-- A number in a radix, with letters in either case and zeros before it. -/
def padded (radix : Nat) (upper : Bool) (zeros n : Nat) : List Char :=
  List.replicate zeros '0' ++ (ofNat radix n).map (char upper)

/-- A padded number has its digits and the zeros before them. -/
theorem length_padded (two_le : 2 ≤ radix) : (padded radix upper zeros n).length = zeros + (Nat.log radix n + 1) := by
  simp [padded, length_ofNat_eq_log two_le]

/-- There is a digit in any case. -/
theorem padded_ne_nil (two_le : 2 ≤ radix) : padded radix upper zeros n ≠ [] := by
  rw [← List.length_pos_iff, length_padded two_le]
  omega

/-- The digits of a number behind zeros are those of the number behind zeros. -/
theorem filterMap_padded (two_le : 2 ≤ radix) (le : radix ≤ 16) :
    (padded radix upper zeros n).filterMap (fun c => ofCode radix c.toNat) =
      List.replicate zeros 0 ++ ofNat radix n := by
  have zero : ofCode radix '0'.toNat = some 0 := ofCode_char false le (d := 0) (by omega)
  have zeros : (List.replicate zeros '0').filterMap (fun c => ofCode radix c.toNat) = List.replicate zeros 0 := by
    rw [List.filterMap_replicate, zero]
  have digits : ((ofNat radix n).map (char upper)).filterMap (fun c => ofCode radix c.toNat) = ofNat radix n := by
    rw [List.filterMap_map]
    refine (List.filterMap_congr fun d mem => ?_).trans List.filterMap_some
    exact ofCode_char upper le (lt_of_mem_ofNat (by omega) mem)
  rw [padded, List.filterMap_append, zeros, digits]

/-- All of them are digits of the radix. -/
theorem isDigitIn_padded (upper : Bool) (zeros n : Nat) (two_le : 2 ≤ radix) (le : radix ≤ 16) :
    ∀ c ∈ padded radix upper zeros n, (ofCode radix c.toNat).isSome = true := by
  intro c mem
  rcases List.mem_append.mp mem with zero | digit
  · rw [List.eq_of_mem_replicate zero]
    exact Option.isSome_of_eq_some (ofCode_char false le (d := 0) (by omega))
  · obtain ⟨d, mem_d, rfl⟩ := List.mem_map.mp digit
    exact Option.isSome_of_eq_some (ofCode_char upper le (lt_of_mem_ofNat (by omega) mem_d))

end Digits

/-! ### Numerals of numbers -/

namespace Numeral

/-- A mark stands for a radix of two at least. -/
theorem Mark.two_le_radix (m : Mark) : 2 ≤ m.radix := by
  cases m <;> decide

/-- A mark stands for a radix of sixteen at most. -/
theorem Mark.radix_le (m : Mark) : m.radix ≤ 16 := by
  cases m <;> decide

/-- A number as a numeral, with zeros before its digits. -/
def Word.ofNat (s : Sign) (m : Mark) (upper : Bool) (zeros n : Nat) : Word where
  sign := s
  mark := m
  digits := (Text.ofChars (Digits.padded m.radix upper zeros n)).units
  digits_ne_nil := by
    have ascii := Digits.isDigitIn_padded upper zeros n m.two_le_radix m.radix_le
    rw [(Digits.units_ofChars_of_lt fun c mem => Digits.lt_of_isSome_ofCode (ascii c mem)).1]
    simpa using Digits.padded_ne_nil m.two_le_radix
  isDigit := Digits.isDigitIn_ofChars (Digits.isDigitIn_padded upper zeros n m.two_le_radix m.radix_le)

/-- A number is that of its numerals, whatever zeros they have. -/
@[simp] theorem Word.size_ofNat (s : Sign) (m : Mark) (upper : Bool) (zeros n : Nat) :
    (Word.ofNat s m upper zeros n).size = n := by
  have digits := Digits.digitsOf_ofChars (Digits.isDigitIn_padded upper zeros n m.two_le_radix m.radix_le)
  show Digits.value m.radix (digitsOf m.radix (Text.ofChars (Digits.padded m.radix upper zeros n)).units) = n
  rw [digits, Digits.filterMap_padded m.two_le_radix m.radix_le, Digits.value_zeros_append,
    Digits.value_ofNat _ _ m.two_le_radix]

end Numeral

end SystemUnit
