import SystemUnit.Numeral.Integer
import SystemUnit.Proofs.Numeral.Decimal

namespace SystemUnit

namespace Numeral

/-!
# Runs of digits

The scan of a run of digits looks at a limit behind each digit, and ends at the first unit that is no digit.  Reading
on never makes a number less, and so the run is scanned to its end exactly if its whole number is within the limit.

* `isDigitIn`, `digitsOf` — the digits of a radix among units;
* `digitRun_append` — a run within the limit is scanned to its end;
* `digitRun_eq_ok` — what is scanned is such a run.
-/

variable {radix limit : Nat} {digits rest units : List CodeUnit}

/-- Whether a unit is a digit of a radix, letters in either case. -/
def isDigitIn (radix : Nat) (u : CodeUnit) : Bool := (Digits.ofCode radix u.toNat).isSome

/-- The digits of a radix among units. -/
def digitsOf (radix : Nat) (units : List CodeUnit) : List Nat := units.filterMap (Digits.ofCode radix ·.toNat)

theorem digitsOf_cons {u : CodeUnit} {d : Nat} (code : Digits.ofCode radix u.toNat = some d) :
    digitsOf radix (u :: units) = d :: digitsOf radix units := by
  simp [digitsOf, code]

/-- A run of digits is scanned to its end if its number is within the limit: so are the numbers before it. -/
theorem digitRun_append (pos : 0 < radix) (isDigit : ∀ u ∈ digits, isDigitIn radix u = true)
    (ends : ∀ u ∈ rest.head?, isDigitIn radix u = false) (v : Nat)
    (le : (digitsOf radix digits).foldl (fun v d => v * radix + d) v ≤ limit) :
    digitRun radix limit v (digits ++ rest) =
      .ok ((digitsOf radix digits).foldl (fun v d => v * radix + d) v, digits.length) := by
  induction digits generalizing v with
  | nil =>
    cases rest with
    | nil => rfl
    | cons u rest =>
      have none : Digits.ofCode radix u.toNat = none := by
        simpa [isDigitIn] using ends u rfl
      rw [List.nil_append, digitRun, none]
      rfl
  | cons u digits ih =>
    obtain ⟨d, code⟩ := Option.isSome_iff_exists.mp (isDigit u List.mem_cons_self)
    rw [digitsOf_cons code, List.foldl_cons] at le ⊢
    have here := Nat.le_trans (Digits.le_foldl pos _ _) le
    have tail := ih (fun u mem => isDigit u (List.mem_cons_of_mem _ mem)) _ le
    rw [List.cons_append, digitRun, code]
    simp only [if_neg (Nat.not_lt.mpr here), tail, List.length_cons]

/-- What is scanned is a run of digits whose number is within the limit. -/
theorem digitRun_eq_ok {v x n : Nat} (within : v ≤ limit) (h : digitRun radix limit v units = .ok (x, n)) :
    ∃ digits rest, units = digits ++ rest ∧ digits.length = n ∧ (∀ u ∈ digits, isDigitIn radix u = true) ∧
      (digitsOf radix digits).foldl (fun v d => v * radix + d) v = x ∧ x ≤ limit := by
  induction units generalizing v x n with
  | nil =>
    cases h
    exact ⟨[], [], rfl, rfl, List.forall_mem_nil _, rfl, within⟩
  | cons u units ih =>
    rw [digitRun] at h
    split at h
    · cases h
      exact ⟨[], u :: units, rfl, rfl, List.forall_mem_nil _, rfl, within⟩
    · rename_i d code
      dsimp only at h
      split at h
      · cases h
      · rename_i fits
        split at h
        · rename_i y m tail
          cases h
          obtain ⟨digits, rest, rfl, rfl, isDigit, value, le⟩ := ih (Nat.not_lt.mp fits) tail
          refine ⟨u :: digits, rest, rfl, rfl, List.forall_mem_cons.mpr ⟨?_, isDigit⟩, ?_, le⟩
          · rw [isDigitIn, code]
            rfl
          · rw [digitsOf_cons code, List.foldl_cons]
            exact value
        · cases h

end Numeral

end SystemUnit
