import SystemUnit.Text.CodePoints
import SystemUnit.Proofs.Utf8.Encoding

namespace SystemUnit

namespace Text

/-!
# Surrogates with and without a partner

A text is read as characters from left to right.  Which of its units are lost on the way can be told unit by
unit, from the neighbours of each.

* `isUnpaired` — whether the unit at an index is a surrogate without its partner;
* `withoutUnpaired` — the units that are not, in their order;
* `units_induction` — units, a pair or a single unit at a time;
* `ofChars_charsOfUnits` — a text that becomes characters loses just its unpaired surrogates;
* `charsOfUnits_flatMap_ofChar` — characters that become a text lose nothing.
-/

variable {c d : CodeUnit} {rest : List CodeUnit}

/-! ### Units and their neighbours -/

/-- Whether a high surrogate stands at an index. -/
def highAt (units : List CodeUnit) (i : Nat) : Bool := units[i]?.any CodeUnit.isHighSurrogate

/-- Whether a low surrogate stands at an index. -/
def lowAt (units : List CodeUnit) (i : Nat) : Bool := units[i]?.any CodeUnit.isLowSurrogate

/-- Whether the unit at an index is a high surrogate that no low one follows, or a low one that follows no high
    one. -/
def isUnpaired (units : List CodeUnit) (i : Nat) : Bool :=
  highAt units i && !lowAt units (i + 1) || lowAt units i && !(0 < i && highAt units (i - 1))

/-- The units that are no unpaired surrogates. -/
def withoutUnpaired (units : List CodeUnit) : List CodeUnit :=
  (units.zipIdx.filter fun p => !isUnpaired units p.2).map Prod.fst

@[simp] theorem highAt_cons_zero : highAt (c :: rest) 0 = c.isHighSurrogate := rfl

@[simp] theorem highAt_cons_succ (i : Nat) : highAt (c :: rest) (i + 1) = highAt rest i := rfl

@[simp] theorem lowAt_cons_zero : lowAt (c :: rest) 0 = c.isLowSurrogate := rfl

@[simp] theorem lowAt_cons_succ (i : Nat) : lowAt (c :: rest) (i + 1) = lowAt rest i := rfl

/-! ### Ranges -/

/-- The range of the surrogates that begin a pair. -/
theorem isHighSurrogate_iff : c.isHighSurrogate = true ↔ 0xD800 ≤ c.toNat ∧ c.toNat ≤ 0xDBFF := by
  unfold CodeUnit.isHighSurrogate
  rw [Bool.and_eq_true, decide_eq_true_eq, decide_eq_true_eq, UInt16.le_iff_toNat_le, UInt16.le_iff_toNat_le]
  exact Iff.rfl

/-- The range of the surrogates that end one. -/
theorem isLowSurrogate_iff : c.isLowSurrogate = true ↔ 0xDC00 ≤ c.toNat ∧ c.toNat ≤ 0xDFFF := by
  unfold CodeUnit.isLowSurrogate
  rw [Bool.and_eq_true, decide_eq_true_eq, decide_eq_true_eq, UInt16.le_iff_toNat_le, UInt16.le_iff_toNat_le]
  exact Iff.rfl

/-- No high surrogate is a low one. -/
theorem isLowSurrogate_of_high (high : c.isHighSurrogate = true) : c.isLowSurrogate = false := by
  rw [isHighSurrogate_iff] at high
  rw [Bool.eq_false_iff, Ne, isLowSurrogate_iff]
  omega

/-- No surrogate does both. -/
theorem isHighSurrogate_of_low (low : c.isLowSurrogate = true) : c.isHighSurrogate = false := by
  rw [isLowSurrogate_iff] at low
  rw [Bool.eq_false_iff, Ne, isHighSurrogate_iff]
  omega

/-- A unit that starts no pair does not matter to those after it. -/
theorem isUnpaired_cons_succ (single : (c.isHighSurrogate && lowAt rest 0) = false) (i : Nat) :
    isUnpaired (c :: rest) (i + 1) = isUnpaired rest i := by
  -- only the unit right behind `c` looks at `c`, and only if it is a low surrogate
  cases i with
  | zero =>
    unfold isUnpaired
    cases low : lowAt rest 0
    · simp [low]
    · rw [low, Bool.and_true] at single
      simp [low, single]
  | succ i => simp [isUnpaired]

/-- Nor does a pair. -/
theorem isUnpaired_pair_succ (low : d.isLowSurrogate = true) (i : Nat) :
    isUnpaired (c :: d :: rest) (i + 2) = isUnpaired rest i := by
  have single : (d.isHighSurrogate && lowAt rest 0) = false := by
    rw [isHighSurrogate_of_low low, Bool.false_and]
  rw [← isUnpaired_cons_succ single]
  cases i <;> simp [isUnpaired]

/-- What is kept of a list, index by index. -/
theorem kept_cons (keep : Nat → Bool) :
    ((c :: rest).zipIdx.filter fun p => keep p.2).map Prod.fst =
      (if keep 0 then [c] else []) ++ (rest.zipIdx.filter fun p => keep (p.2 + 1)).map Prod.fst := by
  have shifted : rest.zipIdx 1 = rest.zipIdx.map fun p => (p.1, p.2 + 1) := by
    rw [List.zipIdx_succ]
  rw [List.zipIdx_cons, shifted, List.filter_cons, List.filter_map]
  split <;> simp [Function.comp_def]

/-! ### Pairs and single units -/

/-- **Units, a pair or a single unit at a time.**  A single unit is one that starts no pair. -/
theorem units_induction {motive : List CodeUnit → Prop} (nil : motive [])
    (pair : ∀ c d rest, c.isHighSurrogate = true → d.isLowSurrogate = true → motive rest →
      motive (c :: d :: rest))
    (single : ∀ c rest, (c.isHighSurrogate && lowAt rest 0) = false → motive rest → motive (c :: rest))
    (units : List CodeUnit) : motive units := by
  -- the cases of the reading, of which a last unit and one without a partner are alike
  induction units using charsOfUnits.induct with
  | case1 => exact nil
  | case2 c | case3 c => exact single c [] (Bool.and_false _) nil
  | case4 c d rest high low ih => exact pair c d rest high low ih
  | case5 c d rest _ other ih =>
    refine single c (d :: rest) ?_ ih
    rw [lowAt_cons_zero, Bool.eq_false_iff.mpr other, Bool.and_false]
  | case6 c d rest other _ ih | case7 c d rest other _ ih =>
    refine single c (d :: rest) ?_ ih
    rw [Bool.eq_false_iff.mpr other, Bool.false_and]

/-- A pair is read as its character. -/
theorem charsOfUnits_pair (high : c.isHighSurrogate = true) (low : d.isLowSurrogate = true) :
    charsOfUnits (c :: d :: rest) = CodeUnit.pair c d :: charsOfUnits rest := by
  rw [charsOfUnits, if_pos high, if_pos low]

/-- A unit that begins no pair is read as its character, or lost if it is a surrogate. -/
theorem charsOfUnits_single (single : (c.isHighSurrogate && lowAt rest 0) = false) :
    charsOfUnits (c :: rest) =
      (if c.isHighSurrogate || c.isLowSurrogate then [] else [c.toChar]) ++ charsOfUnits rest := by
  cases rest with
  | nil => rw [charsOfUnits, charsOfUnits, List.append_nil]
  | cons d rest =>
    rw [lowAt_cons_zero] at single
    rw [charsOfUnits]
    cases high : c.isHighSurrogate
    · cases low : c.isLowSurrogate <;> simp
    · rw [high, Bool.true_and] at single
      simp [single]

/-- Both units of a pair are kept. -/
theorem withoutUnpaired_pair (high : c.isHighSurrogate = true) (low : d.isLowSurrogate = true) :
    withoutUnpaired (c :: d :: rest) = c :: d :: withoutUnpaired rest := by
  have low_c := isLowSurrogate_of_high high
  have high_d := isHighSurrogate_of_low low
  -- neither of the two is unpaired, each for the sake of the other
  have first : isUnpaired (c :: d :: rest) 0 = false := by
    simp [isUnpaired, high, low, low_c]
  have second : isUnpaired (c :: d :: rest) 1 = false := by
    simp [isUnpaired, high, low, high_d]
  unfold withoutUnpaired
  rw [kept_cons (fun i => !isUnpaired (c :: d :: rest) i),
    kept_cons (fun i => !isUnpaired (c :: d :: rest) (i + 1)), first, second]
  simp only [isUnpaired_pair_succ low]
  rfl

/-- A unit that begins no pair is kept unless it is a surrogate. -/
theorem withoutUnpaired_single (single : (c.isHighSurrogate && lowAt rest 0) = false) :
    withoutUnpaired (c :: rest) =
      (if c.isHighSurrogate || c.isLowSurrogate then [] else [c]) ++ withoutUnpaired rest := by
  have first : isUnpaired (c :: rest) 0 = (c.isHighSurrogate || c.isLowSurrogate) := by
    cases high : c.isHighSurrogate
    · simp [isUnpaired, high]
    · rw [high, Bool.true_and] at single
      simp [isUnpaired, high, single]
  unfold withoutUnpaired
  rw [kept_cons (fun i => !isUnpaired (c :: rest) i), first]
  simp only [isUnpaired_cons_succ single]
  cases c.isHighSurrogate || c.isLowSurrogate <;> rfl

/-! ### Units and characters -/

/-- The number of the character of a pair. -/
theorem toNat_pair (high : c.isHighSurrogate = true) (low : d.isLowSurrogate = true) :
    (CodeUnit.pair c d).toNat = 0x10000 + (c.toNat - 0xD800) * 0x400 + (d.toNat - 0xDC00) := by
  rw [isHighSurrogate_iff] at high
  rw [isLowSurrogate_iff] at low
  exact Utf8.toNat_charOfNat (by omega)

/-- A pair is that of its character. -/
theorem ofChar_pair (high : c.isHighSurrogate = true) (low : d.isLowSurrogate = true) :
    CodeUnit.ofChar (CodeUnit.pair c d) = [c, d] := by
  have number := toNat_pair high low
  rw [isHighSurrogate_iff] at high
  rw [isLowSurrogate_iff] at low
  have unit : ∀ (u : CodeUnit) {k : Nat}, k = u.toNat → UInt16.ofNat k = u := by
    rintro u k rfl
    exact UInt16.ofNat_toNat
  unfold CodeUnit.ofChar
  rw [if_neg (by omega), number, unit c (by omega), unit d (by omega)]

/-- A unit that is no surrogate has the number of its character. -/
theorem toNat_toChar (none : (c.isHighSurrogate || c.isLowSurrogate) = false) : c.toChar.toNat = c.toNat := by
  have below : c.toNat < 0x10000 := c.toNat_lt
  unfold CodeUnit.toChar
  rw [none]
  rw [Bool.or_eq_false_iff, Bool.eq_false_iff, Bool.eq_false_iff, Ne, Ne, isHighSurrogate_iff,
    isLowSurrogate_iff] at none
  exact Utf8.toNat_charOfNat (by omega)

/-- A unit that is no surrogate is that of its character. -/
theorem ofChar_toChar (none : (c.isHighSurrogate || c.isLowSurrogate) = false) :
    CodeUnit.ofChar c.toChar = [c] := by
  have below : c.toNat < 0x10000 := c.toNat_lt
  unfold CodeUnit.ofChar
  rw [toNat_toChar none, if_pos below, UInt16.ofNat_toNat]

/-- The units of a character are a single unit that is no surrogate, or a pair. -/
theorem ofChar_cases (x : Char) :
    (∃ c, CodeUnit.ofChar x = [c] ∧ (c.isHighSurrogate || c.isLowSurrogate) = false ∧ c.toChar = x) ∨
      ∃ c d, CodeUnit.ofChar x = [c, d] ∧ c.isHighSurrogate = true ∧ d.isLowSurrogate = true ∧
        CodeUnit.pair c d = x := by
  have range := Utf8.char_range x
  have unit : ∀ k < 0x10000, ∃ c : CodeUnit, UInt16.ofNat k = c ∧ c.toNat = k := fun k lt =>
    ⟨_, rfl, UInt16.toNat_ofNat_of_lt' lt⟩
  unfold CodeUnit.ofChar
  -- one unit for a number of sixteen bits, and else two with ten bits each
  by_cases basic : x.toNat < 0x10000
  · obtain ⟨c, c_eq, number⟩ := unit x.toNat basic
    have none : (c.isHighSurrogate || c.isLowSurrogate) = false := by
      rw [Bool.or_eq_false_iff, Bool.eq_false_iff, Bool.eq_false_iff, Ne, Ne, isHighSurrogate_iff,
        isLowSurrogate_iff]
      omega
    refine .inl ⟨c, by rw [if_pos basic, c_eq], none, ?_⟩
    rw [← Char.toNat_inj, toNat_toChar none, number]
  · obtain ⟨c, c_eq, c_number⟩ := unit (0xD800 + (x.toNat - 0x10000) / 0x400) (by omega)
    obtain ⟨d, d_eq, d_number⟩ := unit (0xDC00 + (x.toNat - 0x10000) % 0x400) (by omega)
    have high : c.isHighSurrogate = true := isHighSurrogate_iff.mpr (by omega)
    have low : d.isLowSurrogate = true := isLowSurrogate_iff.mpr (by omega)
    refine .inr ⟨c, d, by rw [if_neg basic, c_eq, d_eq], high, low, ?_⟩
    rw [← Char.toNat_inj, toNat_pair high low]
    omega

/-- The units of a character are read as that character, whatever comes after them. -/
theorem charsOfUnits_ofChar_append (x : Char) (rest : List CodeUnit) :
    charsOfUnits (CodeUnit.ofChar x ++ rest) = x :: charsOfUnits rest := by
  rcases ofChar_cases x with ⟨c, units_eq, none, char⟩ | ⟨c, d, units_eq, high, low, char⟩
  · have single : (c.isHighSurrogate && lowAt rest 0) = false := by
      rw [(Bool.or_eq_false_iff.mp none).1, Bool.false_and]
    rw [units_eq, List.singleton_append, charsOfUnits_single single, none, char]
    rfl
  · rw [units_eq, List.cons_append, List.singleton_append, charsOfUnits_pair high low, char]

/-- **A text that becomes characters loses just its unpaired surrogates.** -/
theorem ofChars_charsOfUnits (units : List CodeUnit) :
    (charsOfUnits units).flatMap CodeUnit.ofChar = withoutUnpaired units := by
  induction units using units_induction with
  | nil => rfl
  | pair c d rest high low ih =>
    rw [charsOfUnits_pair high low, withoutUnpaired_pair high low, List.flatMap_cons, ofChar_pair high low, ih]
    rfl
  | single c rest single ih =>
    rw [charsOfUnits_single single, withoutUnpaired_single single, List.flatMap_append, ih]
    cases none : c.isHighSurrogate || c.isLowSurrogate
    · simp [ofChar_toChar none]
    · rfl

/-- Of two high surrogates the first is lost, and the second has its partner. -/
example : (charsOfUnits [0xD83D, 0xD83D, 0xDE00, 0xDE00, 0x61]).flatMap CodeUnit.ofChar =
    [0xD83D, 0xDE00, 0x61] := by
  decide

/-- **Characters that become a text lose nothing.** -/
theorem charsOfUnits_flatMap_ofChar (cs : List Char) : charsOfUnits (cs.flatMap CodeUnit.ofChar) = cs := by
  induction cs with
  | nil => rfl
  | cons x cs ih => rw [List.flatMap_cons, charsOfUnits_ofChar_append, ih]

/-- Nothing is lost exactly if there is no unpaired surrogate. -/
theorem withoutUnpaired_eq_self_iff {units : List CodeUnit} :
    withoutUnpaired units = units ↔ ∀ i, isUnpaired units i = false := by
  unfold withoutUnpaired
  constructor
  · intro all i
    -- nothing was dropped, or there would be fewer units
    have same_length : (units.zipIdx.filter fun p => !isUnpaired units p.2).length = units.zipIdx.length := by
      rw [List.length_zipIdx, ← List.length_map Prod.fst, all]
    rw [List.length_filter_eq_length_iff] at same_length
    cases at_i : units[i]? with
    | none => simp [isUnpaired, highAt, lowAt, at_i]
    | some c =>
      have kept := same_length (c, i) (List.mk_mem_zipIdx_iff_getElem?.mpr at_i)
      rw [Bool.not_eq_true'] at kept
      exact kept
  · intro none
    have kept : (units.zipIdx.filter fun p => !isUnpaired units p.2) = units.zipIdx := by
      rw [List.filter_eq_self]
      intro p _
      rw [none p.2]
      rfl
    rw [kept, List.zipIdx_map_fst]

end Text

end SystemUnit
