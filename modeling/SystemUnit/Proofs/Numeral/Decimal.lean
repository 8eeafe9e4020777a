import SystemUnit.Numeral.Digits
import Mathlib.Data.List.Basic

namespace SystemUnit

namespace Digits

/-!
# Words of digits

A number is written without zeros in front, and a word of digits is read place by place, whatever zeros it has
in front.

* `wordValue` — the number that a word of decimal digits stands for;
* `wordValue_decimal` — a number that is written stands for itself;
* `isDigit_of_mem_decimal`, `decimal_eq_cons` — it is written in digits, of which the first is no zero unless
  the number is;
* `le_foldl`, `wordValue_pos` — reading on does not make a number less, and so a word that does not start with a zero
  stands for a positive number.
-/

variable {radix n d : Nat} {rest : List Nat} {c : Char}

/-- The number that a word of decimal digits stands for. -/
def wordValue (word : List Char) : Nat := value 10 (word.map fun c => c.toNat - 0x30)

/-! ### The digits of a number -/

theorem lt_of_mem_push (small : ∀ d ∈ rest, d < radix) (h : d ∈ push radix n rest) : d < radix := by
  fun_induction push radix n rest with
  | case1 n rest pos ih =>
    refine ih (fun d hd => ?_) h
    rcases List.mem_cons.mp hd with rfl | hd
    · exact Nat.mod_lt _ (by omega)
    · exact small d hd
  | case2 n rest none => exact small d h

/-- Each digit of a number is below the radix. -/
theorem lt_of_mem_ofNat (radix_pos : 0 < radix) (h : d ∈ ofNat radix n) : d < radix := by
  unfold ofNat at h
  split at h
  · rw [List.mem_singleton.mp h]
    exact radix_pos
  · exact lt_of_mem_push (fun d hd => absurd hd List.not_mem_nil) h

/-- The first digit of a positive number is no zero. -/
theorem push_eq_cons (rest : List Nat) (two_le : 2 ≤ radix) (pos : 0 < n) :
    ∃ d ds, push radix n rest = d :: ds ∧ d ≠ 0 := by
  fun_induction push radix n rest with
  | case1 n rest h ih =>
    by_cases more : 0 < n / radix
    · exact ih more
    · -- one digit is left, and it is the number itself
      have small : n / radix = 0 := Nat.eq_zero_of_not_pos more
      have lt : n < radix := (Nat.div_eq_zero_iff.mp small).resolve_left (by omega)
      rw [small, push, dif_neg (by omega)]
      refine ⟨n % radix, rest, rfl, ?_⟩
      rw [Nat.mod_eq_of_lt lt]
      omega
  | case2 n rest none => exact absurd ⟨two_le, pos⟩ none

/-! ### Digits as characters -/

theorem char_of_lt_ten : ∀ d < 10, (char false d).isDigit = true ∧ (char false d).toNat - 0x30 = d := by
  decide

theorem char_ne_zero (lt : d < 10) (ne : d ≠ 0) : char false d ≠ '0' := by
  intro zero
  have digit := (char_of_lt_ten d lt).2
  rw [zero] at digit
  exact ne digit.symm

/-- A number is written in digits. -/
theorem isDigit_of_mem_decimal (h : c ∈ decimal n) : c.isDigit = true := by
  obtain ⟨d, hd, rfl⟩ := List.mem_map.mp h
  exact (char_of_lt_ten d (lt_of_mem_ofNat (by decide) hd)).1

/-- There is at least one of them. -/
theorem decimal_ne_nil (n : Nat) : decimal n ≠ [] := by
  unfold decimal ofNat
  split
  · exact List.cons_ne_nil _ _
  · rename_i ne
    obtain ⟨d, ds, digits, -⟩ := push_eq_cons [] (Nat.le_add_left 2 8) (Nat.pos_of_ne_zero ne)
    rw [digits]
    exact List.cons_ne_nil _ _

/-- A positive number is written without a zero in front. -/
theorem decimal_eq_cons (pos : 0 < n) : ∃ c cs, decimal n = c :: cs ∧ c ≠ '0' := by
  -- the digit of greatest weight is not zero
  obtain ⟨d, ds, digits, ne⟩ := push_eq_cons [] (Nat.le_add_left 2 8) pos
  have written : ofNat 10 n = d :: ds := by
    rw [ofNat, if_neg (by omega), digits]
  have lt : d < 10 := by
    apply lt_of_mem_ofNat (n := n) (by decide)
    rw [written]
    exact List.mem_cons_self
  refine ⟨char false d, ds.map (char false), ?_, char_ne_zero lt ne⟩
  rw [decimal, written, List.map_cons]

/-- **A number that is written stands for itself.** -/
@[simp] theorem wordValue_decimal (n : Nat) : wordValue (decimal n) = n := by
  have read : (decimal n).map (fun c => c.toNat - 0x30) = ofNat 10 n := by
    unfold decimal
    rw [List.map_map]
    refine (List.map_congr_left fun d hd => ?_).trans (List.map_id _)
    exact (char_of_lt_ten d (lt_of_mem_ofNat (by decide) hd)).2
  rw [wordValue, read, value_ofNat 10 n (by decide)]

/-! ### Words -/

/-- Reading on does not make a number less. -/
theorem le_foldl (pos : 0 < radix) (ds : List Nat) (v : Nat) : v ≤ ds.foldl (fun v d => v * radix + d) v := by
  induction ds generalizing v with
  | nil => exact Nat.le_refl _
  | cons d ds ih =>
    have here : v * 1 ≤ v * radix := Nat.mul_le_mul_left v pos
    have step := ih (v * radix + d)
    rw [List.foldl_cons]
    omega

/-- A word that does not start with a zero stands for a positive number. -/
theorem wordValue_pos (digit : c.isDigit = true) (ne : c ≠ '0') (cs : List Char) : 0 < wordValue (c :: cs) := by
  have code : 0x30 < c.toNat := by
    have least : 0x30 ≤ c.toNat := by
      rw [Char.isDigit, Bool.and_eq_true, decide_eq_true_eq] at digit
      exact UInt32.le_iff_toNat_le.mp digit.1
    have other : c.toNat ≠ '0'.toNat := fun same => ne (Char.toNat_inj.mp same)
    have zero : '0'.toNat = 0x30 := rfl
    omega
  -- the digits behind the first one can only add to it
  have le := le_foldl (show 0 < 10 by decide) (cs.map fun c => c.toNat - 0x30) (c.toNat - 0x30)
  unfold wordValue value
  rw [List.map_cons, List.foldl_cons, Nat.zero_mul, Nat.zero_add]
  omega

end Digits

end SystemUnit
