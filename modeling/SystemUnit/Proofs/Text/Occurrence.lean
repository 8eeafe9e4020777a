import SystemUnit.Text.Edit
import SystemUnit.Text.Search
import SystemUnit.Proofs.Whole.Arithmetic
import Mathlib.Order.Bounds.Defs

namespace SystemUnit

namespace Text

/-!
# Occurrences in a text

A text that is not empty occurs where copying as many units gives it.  Each search finds the first occurrence from an
index on, and searching again behind every one that was found goes through all of them.

* `FirstAt`, `FirstAt.unique` — a list stands in another behind some units, and nowhere before;
* `find?_eq_some_iff`, `find?_eq_none_iff` — the units before the first occurrence, if there is one;
* `OccursAt`, `occursAt_iff` — a text occurs at an index, and what that means for the units;
* `posFrom_cases` — one search;
* `Searches`, `exists_searches` — all searches, each behind the one before;
* `posFrom_finds_first` — the first occurrence and all of them.
-/

variable {pattern units rest : List CodeUnit} {c : CodeUnit} {n : Nat}

/-! ### The first occurrence in a list -/

/-- A pattern stands behind the first `n` units, and behind no fewer. -/
structure FirstAt (pattern units : List CodeUnit) (n : Nat) : Prop where
  here : pattern <+: units.drop n
  earliest : ∀ m < n, ¬ pattern <+: units.drop m

/-- There is but one first place. -/
theorem FirstAt.unique {m : Nat} (h : FirstAt pattern units n) (h' : FirstAt pattern units m) : n = m := by
  rcases Nat.lt_trichotomy n m with lt | same | gt
  · exact absurd h.here (h'.earliest n lt)
  · exact same
  · exact absurd h'.here (h.earliest m gt)

/-- What a list begins with stands there first. -/
theorem firstAt_zero (here : pattern <+: units) : FirstAt pattern units 0 :=
  ⟨here, fun m lt => absurd lt (Nat.not_lt_zero m)⟩

/-- A unit where the pattern does not stand is passed over. -/
theorem firstAt_cons_succ (other : ¬ pattern <+: c :: units) :
    FirstAt pattern (c :: units) (n + 1) ↔ FirstAt pattern units n := by
  constructor
  · intro h
    exact ⟨h.here, fun m lt => h.earliest (m + 1) (Nat.succ_lt_succ lt)⟩
  · intro h
    refine ⟨h.here, fun m lt => ?_⟩
    cases m with
    | zero => exact other
    | succ m => exact h.earliest m (Nat.lt_of_succ_lt_succ lt)

/-- An empty pattern is not found. -/
@[simp] theorem find?_nil_pattern (units : List CodeUnit) : find? [] units = none := by
  induction units with
  | nil => rfl
  | cons c units ih => simp [find?, ih]

/-- What the units begin with is found at once. -/
theorem find?_cons_of_starts (ne : pattern ≠ []) (here : pattern <+: c :: units) :
    find? pattern (c :: units) = some 0 := by
  have starts := List.isPrefixOf_iff_prefix.mpr here
  simp [find?, ne, starts]

/-- What they do not begin with is looked for behind the first one. -/
theorem find?_cons_of_not_starts (other : ¬ pattern <+: c :: units) :
    find? pattern (c :: units) = (find? pattern units).map (· + 1) := by
  rw [← List.isPrefixOf_iff_prefix, Bool.not_eq_true] at other
  simp [find?, other]

/-- **The search finds the first occurrence.** -/
theorem find?_eq_some_iff (ne : pattern ≠ []) : find? pattern units = some n ↔ FirstAt pattern units n := by
  induction units generalizing n with
  | nil =>
    -- only the empty pattern stands in the empty list
    refine iff_of_false nofun fun h => ne ?_
    have here := h.here
    rwa [List.drop_nil, List.prefix_nil] at here
  | cons c units ih =>
    by_cases here : pattern <+: c :: units
    · rw [find?_cons_of_starts ne here, Option.some.injEq]
      constructor
      · rintro rfl
        exact firstAt_zero here
      · exact (firstAt_zero here).unique
    · -- the first occurrence is one unit nearer to the start of the rest
      rw [find?_cons_of_not_starts here]
      cases n with
      | zero => exact iff_of_false (by simp) fun h => here h.here
      | succ n => simp [firstAt_cons_succ here, ih]

/-- **The search finds nothing exactly if the pattern stands nowhere.** -/
theorem find?_eq_none_iff (ne : pattern ≠ []) : find? pattern units = none ↔ ¬ pattern <:+: units := by
  induction units with
  | nil => simp [find?, ne]
  | cons c units ih =>
    by_cases here : pattern <+: c :: units
    · rw [find?_cons_of_starts ne here]
      exact iff_of_false nofun fun none => none here.isInfix
    · rw [find?_cons_of_not_starts here, Option.map_eq_none_iff, ih, List.infix_cons_iff]
      simp [here]

/-! ### Occurrences in a text -/

variable {s sub : Text} {i k : Int}

/-- A text that is not empty occurs in another one at an index. -/
def OccursAt (s sub : Text) (i : Int) : Prop := sub ≠ .empty ∧ 1 ≤ i ∧ s.copy i sub.size = sub

/-- A text is not empty if it has units. -/
theorem ne_empty_iff : sub ≠ .empty ↔ sub.units ≠ [] := not_congr Text.ext_iff

/-- A text occurs at an index if its units stand behind those before the index. -/
theorem occursAt_iff (s sub : Text) (n : Nat) :
    OccursAt s sub (n + 1) ↔ sub.units ≠ [] ∧ sub.units <+: s.units.drop n := by
  have copied : s.copy (n + 1) sub.size = sub ↔ sub.units <+: s.units.drop n := by
    have start : (max ((n : Int) + 1) 1 - 1).toNat = n := by omega
    rw [copy, start, Text.ext_iff, List.prefix_iff_eq_take, eq_comm]
    rfl
  rw [OccursAt, ne_empty_iff, copied]
  constructor
  · rintro ⟨ne, -, here⟩
    exact ⟨ne, here⟩
  · rintro ⟨ne, here⟩
    exact ⟨ne, by omega, here⟩

/-- From an index from 1 on it is enough that the text can be copied. -/
theorem setOf_occursAt (ne : sub ≠ .empty) (pos : 1 ≤ k) :
    {i | k ≤ i ∧ OccursAt s sub i} = {i | k ≤ i ∧ s.copy i sub.size = sub} := by
  ext i
  refine and_congr_right fun from_k => ?_
  exact ⟨fun occurs => occurs.2.2, fun copied => ⟨ne, by omega, copied⟩⟩

/-- Every occurrence begins in the text. -/
theorem OccursAt.exists_offset (h : OccursAt s sub i) :
    ∃ n : Nat, i = n + 1 ∧ n < s.size ∧ sub.units ≠ [] ∧ sub.units <+: s.units.drop n := by
  obtain ⟨n, rfl⟩ : ∃ n : Nat, i = n + 1 := ⟨(i - 1).toNat, by have := h.2.1; omega⟩
  obtain ⟨ne, here⟩ := (occursAt_iff s sub n).mp h
  refine ⟨n, rfl, ?_, ne, here⟩
  -- behind the last unit only the empty text would occur
  apply Nat.lt_of_not_le
  intro behind
  rw [List.drop_of_length_le behind, List.prefix_nil] at here
  exact ne here

/-- Units that are passed over can be passed over in two steps. -/
theorem drop_eq_drop_drop (start : Nat) (le : start ≤ n) (units : List CodeUnit) :
    units.drop n = (units.drop start).drop (n - start) := by
  rw [List.drop_drop, Nat.add_sub_cancel' le]

/-- Where nothing is found there is no occurrence further on. -/
theorem not_occursAt_of_find?_eq_none {start : Nat} (found : find? sub.units (s.units.drop start) = none)
    (from_start : start + 1 ≤ i) : ¬ OccursAt s sub i := by
  intro occurs
  obtain ⟨n, rfl, -, ne, here⟩ := occurs.exists_offset
  rw [drop_eq_drop_drop start (by omega)] at here
  exact (find?_eq_none_iff ne).mp found (here.isInfix.trans (List.drop_suffix _ _).isInfix)

/-- What is found is the first occurrence from the start on. -/
theorem isLeast_of_find?_eq_some {start : Nat} (found : find? sub.units (s.units.drop start) = some n) :
    IsLeast {i : Int | start + 1 ≤ i ∧ OccursAt s sub i} (start + n + 1) := by
  have ne : sub.units ≠ [] := by
    intro empty
    rw [empty, find?_nil_pattern] at found
    cases found
  obtain ⟨here, earliest⟩ := (find?_eq_some_iff ne).mp found
  rw [List.drop_drop] at here
  refine ⟨⟨by omega, (occursAt_iff s sub (start + n)).mpr ⟨ne, here⟩⟩, ?_⟩
  rintro i ⟨from_start, occurs⟩
  obtain ⟨m, rfl, -, -, here'⟩ := occurs.exists_offset
  -- an earlier occurrence would have been found
  by_contra before
  refine earliest (m - start) (by omega) ?_
  rwa [← drop_eq_drop_drop start (by omega)]

/-- A search that starts in the text looks at the units from there on. -/
theorem posFrom_of_lt {start : Nat} (lt : start < s.size) :
    s.posFrom sub (start + 1) =
      Whole.ofNat .integer (((find? sub.units (s.units.drop start)).map (start + · + 1)).getD 0) := by
  have inside : s.offset? (start + 1) = some start := offset?_eq_some_iff.mpr ⟨rfl, lt⟩
  rw [posFrom, inside]
  rfl

/-- From an index outside of the text nothing is looked for. -/
theorem posFrom_of_outside (outside : k < 1 ∨ s.size < k) : s.posFrom sub k = Whole.ofNat .integer 0 := by
  have none : s.offset? k = none := by
    rw [offset?, if_neg (by omega)]
  rw [posFrom, none]
  rfl

/-- What is found is an index in the text, and fits into 32 bits. -/
theorem isLeast_posFrom_of_find?_eq_some (short : s.size < 0x80000000) {start : Nat} (lt : start < s.size)
    (found : find? sub.units (s.units.drop start) = some n) :
    IsLeast {i : Int | start + 1 ≤ i ∧ OccursAt s sub i} (s.posFrom sub (start + 1)).toInt := by
  have least := isLeast_of_find?_eq_some found
  obtain ⟨m, index, inside, -⟩ := least.1.2.exists_offset
  have greatest : WholeKind.integer.greatest = 0x7FFFFFFF := by decide
  have fits : (s.posFrom sub (start + 1)).toInt = start + n + 1 := by
    rw [posFrom_of_lt lt, found, Option.map_some, Option.getD_some, Whole.toInt_ofNat (by omega)]
    push_cast
    rfl
  rwa [fits]

/-- **One search**: the least index from `k` on at which the text occurs, or 0. -/
theorem posFrom_cases (short : s.size < 0x80000000) (sub : Text) (k : Int) :
    (1 ≤ k ∧ IsLeast {i | k ≤ i ∧ OccursAt s sub i} (s.posFrom sub k).toInt) ∨
      ((∀ i, 1 ≤ k → k ≤ i → ¬ OccursAt s sub i) ∧ s.posFrom sub k = Whole.ofNat .integer 0) := by
  by_cases inside : 1 ≤ k ∧ k ≤ s.size
  · -- indexes count from one, and units from zero
    obtain ⟨start, rfl⟩ : ∃ start : Nat, k = start + 1 := ⟨(k - 1).toNat, by omega⟩
    have lt : start < s.size := by omega
    cases found : find? sub.units (s.units.drop start) with
    | none =>
      refine .inr ⟨fun i _ from_start => not_occursAt_of_find?_eq_none found from_start, ?_⟩
      rw [posFrom_of_lt lt, found]
      rfl
    | some n => exact .inl ⟨by omega, isLeast_posFrom_of_find?_eq_some short lt found⟩
  · refine .inr ⟨fun i pos from_k occurs => inside ⟨pos, ?_⟩, posFrom_of_outside (by omega)⟩
    obtain ⟨n, rfl, lt, -⟩ := occurs.exists_offset
    omega

/-! ### All occurrences -/

/-- A search from an index on, and another one behind each occurrence until there is none. -/
inductive Searches (s sub : Text) : Int → List Int → Prop where
  | stop {k : Int} (none : s.posFrom sub k = Whole.ofNat .integer 0) : Searches s sub k []
  | found {k : Int} {p : Whole .integer} {more : List Int} (found : s.posFrom sub k = p)
      (some : p ≠ Whole.ofNat .integer 0) (again : Searches s sub (p.toInt + 1) more) :
      Searches s sub k (p.toInt :: more)

/-- The searches find what they find, and there is no choice. -/
theorem Searches.unique {ps qs : List Int} (h : Searches s sub k ps) (h' : Searches s sub k qs) : ps = qs := by
  induction h generalizing qs with
  | stop none =>
    cases h' with
    | stop => rfl
    | found found some => exact absurd (found.symm.trans none) some
  | found found some _ ih =>
    cases h' with
    | stop none => exact absurd (found.symm.trans none) some
    | found found' _ again' =>
      cases found.symm.trans found'
      rw [ih again']

/-- The first occurrence and all behind it are all of them. -/
theorem mem_cons_iff_of_isLeast {p : Int} {ps : List Int} (first : IsLeast {i | k ≤ i ∧ OccursAt s sub i} p)
    (all : ∀ i, i ∈ ps ↔ p + 1 ≤ i ∧ OccursAt s sub i) (i : Int) :
    i ∈ p :: ps ↔ k ≤ i ∧ OccursAt s sub i := by
  obtain ⟨⟨from_k, occurs⟩, least⟩ := first
  rw [List.mem_cons, all]
  constructor
  · rintro (rfl | ⟨behind, occurs⟩)
    · exact ⟨from_k, occurs⟩
    · exact ⟨by omega, occurs⟩
  · rintro ⟨from_k, occurs⟩
    -- an occurrence is the first one, or comes behind it
    rcases Int.lt_or_eq_of_le (least ⟨from_k, occurs⟩) with lt | same
    · exact .inr ⟨lt, occurs⟩
    · exact .inl same.symm

/-- **The searches stop, and have found all occurrences in order.** -/
theorem exists_searches (short : s.size < 0x80000000) (sub : Text) (pos : 1 ≤ k) :
    ∃ ps, Searches s sub k ps ∧ ps.Pairwise (· < ·) ∧ ∀ i, i ∈ ps ↔ k ≤ i ∧ OccursAt s sub i := by
  induction left : (s.size + 1 - k).toNat using Nat.strongRecOn generalizing k with
  | ind left shorter =>
    rcases posFrom_cases short sub k with ⟨-, first⟩ | ⟨none, zero⟩
    · -- what is found lies in the text, so that less of it is left
      have from_k := first.1.1
      obtain ⟨n, index, lt, -⟩ := first.1.2.exists_offset
      obtain ⟨ps, again, sorted, all⟩ :=
        shorter (s.size + 1 - ((s.posFrom sub k).toInt + 1)).toNat (by omega) (by omega) rfl
      refine ⟨(s.posFrom sub k).toInt :: ps, .found rfl ?_ again, ?_, mem_cons_iff_of_isLeast first all⟩
      · intro zero
        rw [zero] at index
        have : (Whole.ofNat .integer 0).toInt = 0 := by decide
        omega
      · rw [List.pairwise_cons]
        refine ⟨fun i mem => ?_, sorted⟩
        have := ((all i).mp mem).1
        omega
    · refine ⟨[], .stop zero, .nil, fun i => ?_⟩
      simp only [List.not_mem_nil, false_iff]
      exact fun ⟨from_k, occurs⟩ => none i pos from_k occurs

/-- Behind the greatest integer comes the least one, where no search starts either. -/
theorem posFrom_succ (short : s.size < 0x80000000) (sub : Text) (p : Whole .integer) :
    s.posFrom sub p.succ.toInt = s.posFrom sub (p.toInt + 1) := by
  have least : WholeKind.integer.least = -0x80000000 := by decide
  have greatest : WholeKind.integer.greatest = 0x7FFFFFFF := by decide
  have range := p.toInt_range
  have next : p.succ = Whole.ofInt .integer (p.toInt + 1) := by
    rw [Whole.ofInt_add, Whole.ofInt_toInt]
    rfl
  rw [next, Whole.toInt_ofInt]
  by_cases last : p.toInt = 0x7FFFFFFF
  · -- neither index lies in the text
    have wrapped : WholeKind.integer.wrap (p.toInt + 1) = -0x80000000 := by
      rw [last]
      decide
    rw [wrapped, posFrom_of_outside (by omega), posFrom_of_outside (by omega)]
  · rw [WholeKind.wrap_eq_self (by omega) (by omega)]

/-- **A search finds the first occurrence, and searching again behind each one finds all.**  In a text whose indexes
    are integers of 32 bits, the index that is found is the least one from which the text that is looked for can be
    copied, and 0 if there is none, if that text is empty, or if the search does not start in the text.  Searches that
    start again behind each occurrence, overlapping ones included, go through all of them in order and stop; it makes
    no difference if the next index is computed with 32 bits. -/
theorem posFrom_finds_first (s sub : Text) (short : s.size < 0x80000000) :
    (∀ k : Int,
      (sub ≠ .empty ∧ 1 ≤ k ∧ k ≤ s.size ∧ (∃ i, k ≤ i ∧ s.copy i sub.size = sub) →
        IsLeast {i | k ≤ i ∧ s.copy i sub.size = sub} (s.posFrom sub k).toInt) ∧
      (¬ (sub ≠ .empty ∧ 1 ≤ k ∧ k ≤ s.size ∧ ∃ i, k ≤ i ∧ s.copy i sub.size = sub) →
        (s.posFrom sub k).toInt = 0)) ∧
    s.pos sub = s.posFrom sub 1 ∧
    (∀ k : Int, 1 ≤ k → ∃ ps, Searches s sub k ps ∧ (∀ others, Searches s sub k others → others = ps) ∧
      ps.Pairwise (· < ·) ∧ ∀ i, i ∈ ps ↔ k ≤ i ∧ OccursAt s sub i) ∧
    ∀ p : Whole .integer, s.posFrom sub p.succ.toInt = s.posFrom sub (p.toInt + 1) := by
  refine ⟨fun k => ?_, rfl, fun k pos => ?_, posFrom_succ short sub⟩
  · constructor
    · rintro ⟨ne, pos, -, i, from_k, copied⟩
      -- an occurrence that is given is one to be found
      rcases posFrom_cases short sub k with ⟨-, least⟩ | ⟨none, -⟩
      · rwa [setOf_occursAt ne pos] at least
      · exact absurd ⟨ne, by omega, copied⟩ (none i pos from_k)
    · intro nowhere
      rcases posFrom_cases short sub k with ⟨pos, ⟨from_k, occurs⟩, -⟩ | ⟨-, zero⟩
      · -- conversely, what has been found is an occurrence
        obtain ⟨n, index, lt, -⟩ := occurs.exists_offset
        exact absurd ⟨occurs.1, pos, by omega, _, from_k, occurs.2.2⟩ nowhere
      · rw [zero]
        decide
  · obtain ⟨ps, searches, sorted, all⟩ := exists_searches short sub pos
    exact ⟨ps, searches, fun others h => h.unique searches, sorted, all⟩

/-- Two occurrences that overlap, the second of them at the end of the text. -/
theorem posFrom_finds_overlapping :
    let s : Text := ⟨[0x62, 0x61, 0x61, 0x61]⟩
    let sub : Text := ⟨[0x61, 0x61]⟩
    s.size < 0x80000000 ∧ (s.pos sub).toInt = 2 ∧ (s.posFrom sub 3).toInt = 3 ∧ (s.posFrom sub 4).toInt = 0 ∧
      IsLeast {i | 3 ≤ i ∧ s.copy i sub.size = sub} 3 ∧ ∀ i, i ∈ [2, 3] ↔ 1 ≤ i ∧ OccursAt s sub i := by
  intro s sub
  have short : s.size < 0x80000000 := by decide
  have found := posFrom_finds_first s sub short
  refine ⟨short, by decide, by decide, by decide, ?_, ?_⟩
  · exact (found.1 3).1 ⟨by decide, by decide, by decide, 3, by decide, by decide⟩
  · obtain ⟨ps, -, unique, -, all⟩ := found.2.2.1 1 (by decide)
    -- the second search begins inside of the first occurrence
    have searches : Searches s sub 1 [2, 3] :=
      .found (p := .ofNat .integer 2) (by decide) (by decide)
        (.found (p := .ofNat .integer 3) (by decide) (by decide) (.stop (by decide)))
    rw [unique [2, 3] searches]
    exact all

end Text

end SystemUnit
