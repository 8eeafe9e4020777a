import SystemUnit.Proofs.Text.Occurrence

namespace SystemUnit

namespace Text

/-!
# Replacing in a text

A pattern is replaced where it stands first, then where it stands first in what is behind that, and so on.  What is
between these places stays, and nothing that was put in is looked at again.

* `replaceUnits_of_find?_eq_some`, `replaceUnits_of_find?_eq_none` — one replacement, and none;
* `Replaces`, `Replaces.result_eq` — the replacements one after the other, and what they come to;
* `Leftmost`, `Leftmost.unique`, `exists_leftmost` — the gaps between the places, which are told by the text;
* `Leftmost.replaces` — there are as many replacements as places, and they leave the gaps;
* `leftmost_singleton` — the gaps between all occurrences of a unit;
* `replace_leftmost` — replacing in a text, and undoing it.
-/

variable {old new units out result : List CodeUnit} {gaps others : List (List CodeUnit)} {c : CodeUnit} {n k : Nat}

/-! ### One replacement after the other -/

/-- Where the pattern stands nowhere, nothing is replaced. -/
theorem replaceUnits_of_find?_eq_none (found : find? old units = none) : replaceUnits old new units = units := by
  induction units with
  | nil => rw [replaceUnits]
  | cons c units ih =>
    rw [find?] at found
    rw [replaceUnits]
    cases here : !old.isEmpty && old.isPrefixOf (c :: units) with
    | true => simp [here] at found
    | false =>
      simp only [here, Bool.false_eq_true, if_false, Option.map_eq_none_iff] at found ⊢
      rw [ih found]

/-- **One replacement**: where the pattern stands first.  Only what is behind it is left to be replaced in. -/
theorem replaceUnits_of_find?_eq_some (found : find? old units = some n) :
    replaceUnits old new units =
      units.take n ++ new ++ replaceUnits old new (units.drop (n + old.length)) := by
  induction units generalizing n with
  | nil => cases found
  | cons c units ih =>
    rw [find?] at found
    rw [replaceUnits]
    cases here : !old.isEmpty && old.isPrefixOf (c :: units) with
    | true =>
      obtain rfl : 0 = n := by simpa [here] using found
      -- the first unit of the pattern is passed over by the match, the others by `drop`
      have pos : 0 < old.length := by
        rw [List.length_pos_iff]
        rintro rfl
        cases here
      obtain ⟨length, eq⟩ := Nat.exists_eq_succ_of_ne_zero pos.ne'
      simp [eq]
    | false =>
      simp only [here, Bool.false_eq_true, if_false, Option.map_eq_some_iff] at found ⊢
      obtain ⟨m, found, rfl⟩ := found
      rw [ih found, Nat.succ_add]
      rfl

/-- A loop looks for the pattern in what is left, puts what is before it and what takes its place behind what it has
    put out, and goes on with what is behind it; when the pattern is found no more, the rest is put out too.  It has
    replaced so many times, and this is the result. -/
inductive Replaces (old new : List CodeUnit) :
    List CodeUnit → List CodeUnit → Nat → List CodeUnit → Prop where
  | stop {out rest : List CodeUnit} (found : find? old rest = none) : Replaces old new out rest 0 (out ++ rest)
  | again {out rest result : List CodeUnit} {n k : Nat} (found : find? old rest = some n)
      (more : Replaces old new (out ++ rest.take n ++ new) (rest.drop (n + old.length)) k result) :
      Replaces old new out rest (k + 1) result

/-- **What the loop comes to.** -/
theorem Replaces.result_eq (h : Replaces old new out units k result) :
    result = out ++ replaceUnits old new units := by
  induction h with
  | stop found => rw [replaceUnits_of_find?_eq_none found]
  | again found _ ih => simp [ih, replaceUnits_of_find?_eq_some found]

/-! ### The gaps between the places -/

/-- Gaps between places where a pattern stands: behind each gap but the last one it stands for the first time from the
    start of that gap on, and in the last one it does not stand. -/
inductive Leftmost (old : List CodeUnit) : List (List CodeUnit) → Prop where
  | last {gap : List CodeUnit} (none : ¬ old <:+: gap) : Leftmost old [gap]
  | next {gap : List CodeUnit} {gaps : List (List CodeUnit)}
      (first : FirstAt old (gap ++ old ++ old.intercalate gaps) gap.length) (rest : Leftmost old gaps) :
      Leftmost old (gap :: gaps)

/-- A gap before others is followed by the separator. -/
theorem intercalate_cons (ne : gaps ≠ []) (sep gap : List CodeUnit) :
    sep.intercalate (gap :: gaps) = gap ++ sep ++ sep.intercalate gaps := by
  cases gaps with
  | nil => exact absurd rfl ne
  | cons next gaps => rw [List.intercalate_cons_cons]

/-- There is at least one gap. -/
theorem Leftmost.ne_nil (h : Leftmost old gaps) : gaps ≠ [] := by
  cases h <;> exact List.cons_ne_nil _ _

/-- What stands somewhere is in there. -/
theorem FirstAt.isInfix (h : FirstAt old units n) : old <:+: units :=
  h.here.isInfix.trans (List.drop_suffix n units).isInfix

/-- **A text has its gaps in one way only.** -/
theorem Leftmost.unique (h : Leftmost old gaps) (h' : Leftmost old others)
    (same : old.intercalate gaps = old.intercalate others) : gaps = others := by
  induction h generalizing others with
  | last none =>
    cases h' with
    | last none' => simpa using same
    | next first' rest' =>
      -- the last gap would have a place in it
      rw [List.intercalate_singleton, intercalate_cons rest'.ne_nil] at same
      rw [same] at none
      exact absurd first'.isInfix none
  | next first rest ih =>
    rw [intercalate_cons rest.ne_nil] at same
    cases h' with
    | last none' =>
      rw [List.intercalate_singleton] at same
      rw [← same] at none'
      exact absurd first.isInfix none'
    | next first' rest' =>
      rw [intercalate_cons rest'.ne_nil] at same
      rw [← same] at first'
      -- the first places are the same, and so is what is behind them
      obtain ⟨front, behind⟩ := List.append_inj same (by simp [first.unique first'])
      rw [List.append_cancel_right front, ih rest' behind]

/-- A place splits the units in what is before it and what is behind it. -/
theorem FirstAt.exists_split (ne : old ≠ []) (h : FirstAt old units n) :
    ∃ gap rest, gap ++ old ++ rest = units ∧ gap.length = n := by
  obtain ⟨rest, behind⟩ := h.here
  have pos := List.length_pos_iff.mpr ne
  have lengths := congrArg List.length behind
  simp only [List.length_append, List.length_drop] at lengths
  refine ⟨units.take n, rest, ?_, ?_⟩
  · rw [List.append_assoc, behind, List.take_append_drop]
  · rw [List.length_take]
    omega

/-- **Every text has such gaps**, and is put together from them. -/
theorem exists_leftmost (ne : old ≠ []) (units : List CodeUnit) :
    ∃ gaps, Leftmost old gaps ∧ old.intercalate gaps = units := by
  induction length : units.length using Nat.strongRecOn generalizing units with
  | ind length shorter =>
    cases found : find? old units with
    | none => exact ⟨[units], .last ((find?_eq_none_iff ne).mp found), List.intercalate_singleton⟩
    | some n =>
      have first := (find?_eq_some_iff ne).mp found
      obtain ⟨gap, rest, rfl, rfl⟩ := first.exists_split ne
      -- what is behind a pattern that is not empty is shorter
      have pos := List.length_pos_iff.mpr ne
      simp only [List.length_append] at length
      obtain ⟨gaps, leftmost, rfl⟩ := shorter rest.length (by omega) rest rfl
      exact ⟨gap :: gaps, .next first leftmost, intercalate_cons leftmost.ne_nil _ _⟩

/-- **The loop replaces at every place, leaves the gaps, and stops.** -/
theorem Leftmost.replaces (ne : old ≠ []) (h : Leftmost old gaps) (new out : List CodeUnit) :
    Replaces old new out (old.intercalate gaps) (gaps.length - 1) (out ++ new.intercalate gaps) := by
  induction h generalizing out with
  | last none =>
    rw [List.intercalate_singleton, List.intercalate_singleton]
    exact .stop ((find?_eq_none_iff ne).mpr none)
  | @next gap gaps first rest ih =>
    -- a gap is behind this one, so that no round is lost in the subtraction
    obtain ⟨k, length⟩ := Nat.exists_eq_succ_of_ne_zero (List.length_pos_iff.mpr rest.ne_nil).ne'
    rw [intercalate_cons rest.ne_nil, intercalate_cons rest.ne_nil, List.length_cons, Nat.add_sub_cancel, length]
    refine .again ((find?_eq_some_iff ne).mpr first) ?_
    have more := ih (out ++ gap ++ new)
    rw [length] at more
    simpa [List.append_assoc] using more

/-- What replaces the pattern stands between its gaps. -/
theorem Leftmost.replaceUnits_eq (ne : old ≠ []) (h : Leftmost old gaps) (new : List CodeUnit) :
    replaceUnits old new (old.intercalate gaps) = new.intercalate gaps :=
  ((h.replaces ne new []).result_eq).symm

/-! ### The occurrences of one unit -/

/-- A unit stands first behind those that are not it. -/
theorem firstAt_singleton {gap : List CodeUnit} (none : c ∉ gap) (rest : List CodeUnit) :
    FirstAt [c] (gap ++ [c] ++ rest) gap.length := by
  refine ⟨by simp, fun m lt here => none ?_⟩
  obtain ⟨behind, eq⟩ := here
  rw [List.append_assoc, List.drop_append_of_le_length lt.le, List.drop_eq_getElem_cons lt, List.cons_append] at eq
  rw [(List.cons.inj eq).1]
  exact List.getElem_mem lt

/-- Gaps without a unit are the gaps between all of its occurrences. -/
theorem leftmost_singleton (ne : gaps ≠ []) (none : ∀ gap ∈ gaps, c ∉ gap) : Leftmost [c] gaps := by
  induction gaps with
  | nil => exact absurd rfl ne
  | cons gap gaps ih =>
    have here := none gap List.mem_cons_self
    cases gaps with
    | nil =>
      refine .last fun occurs => here ?_
      exact occurs.subset (List.mem_singleton_self c)
    | cons next gaps =>
      exact .next (firstAt_singleton here _) (ih (List.cons_ne_nil _ _) fun g mem => none g (.tail _ mem))

/-- What is in a gap is in the whole. -/
theorem mem_intercalate_of_mem {gap : List CodeUnit} (mem : gap ∈ gaps) (unit : c ∈ gap) (sep : List CodeUnit) :
    c ∈ sep.intercalate gaps := by
  induction gaps with
  | nil => cases mem
  | cons first gaps ih =>
    cases gaps with
    | nil =>
      rw [List.mem_singleton.mp mem] at unit
      rwa [List.intercalate_singleton]
    | cons next gaps =>
      rw [List.intercalate_cons_cons]
      rcases List.mem_cons.mp mem with rfl | later
      · simp [unit]
      · exact List.mem_append_right _ (ih later)

/-- A unit that does not stand in a list can take the place of a pattern, which can take its place again. -/
theorem replaceUnits_singleton_replaceUnits (fresh : c ∉ units) (old : List CodeUnit) :
    replaceUnits [c] old (replaceUnits old [c] units) = units := by
  by_cases ne : old = []
  · have none : find? [c] units = none := by
      rw [find?_eq_none_iff (List.cons_ne_nil c [])]
      exact fun occurs => fresh (occurs.subset (List.mem_singleton_self c))
    rw [ne, replaceUnits_of_find?_eq_none (find?_nil_pattern units), replaceUnits_of_find?_eq_none none]
  · obtain ⟨gaps, leftmost, rfl⟩ := exists_leftmost ne units
    -- the gaps are also those between the units that were put in
    have same : Leftmost [c] gaps :=
      leftmost_singleton leftmost.ne_nil fun gap mem unit => fresh (mem_intercalate_of_mem mem unit old)
    rw [leftmost.replaceUnits_eq ne, same.replaceUnits_eq (List.cons_ne_nil c [])]

/-- **Replacing leaves the gaps between the leftmost occurrences.**  A text falls in one way only into gaps between
    occurrences of another one that is not empty, each the first one from the start of the gap before it on, and the
    last gap without any.  What is put in stands between the same gaps, and the loop that puts it in stops after as
    many rounds as there are occurrences, whatever it puts in.  Nothing is replaced if the other text is empty.  A unit
    that does not stand in the text can be put in and replaced back. -/
theorem replace_leftmost (s old : Text) :
    (old ≠ .empty → ∃ gaps, Leftmost old.units gaps ∧ old.units.intercalate gaps = s.units ∧
      (∀ others, Leftmost old.units others → old.units.intercalate others = s.units → others = gaps) ∧
      ∀ new : Text, (s.replace old new).units = new.units.intercalate gaps ∧
        Replaces old.units new.units [] s.units (gaps.length - 1) (s.replace old new).units) ∧
    (∀ new : Text, s.replace .empty new = s) ∧
    ∀ c, c ∉ s.units → (s.replace old (.singleton c)).replace (.singleton c) old = s := by
  refine ⟨fun ne => ?_, fun new => ?_, fun c fresh => ?_⟩
  · rw [ne_empty_iff] at ne
    obtain ⟨gaps, leftmost, whole⟩ := exists_leftmost ne s.units
    refine ⟨gaps, leftmost, whole, fun others h same => h.unique leftmost (same.trans whole.symm), fun new => ?_⟩
    have replaced := leftmost.replaceUnits_eq ne new.units
    -- there are as many rounds as gaps but one, and each of them ends where the next begins
    have rounds := leftmost.replaces ne new.units []
    rw [whole] at replaced rounds
    unfold replace
    rw [replaced]
    exact ⟨rfl, rounds⟩
  · exact Text.ext (replaceUnits_of_find?_eq_none (find?_nil_pattern s.units))
  · exact Text.ext (replaceUnits_singleton_replaceUnits fresh old.units)

/-- A pattern that overlaps itself, replaced by a text that contains it; the last gap is empty, and so is the first
    one. -/
theorem replace_leftmost_overlapping :
    let s : Text := ⟨[0x61, 0x61, 0x61, 0x62, 0x61, 0x61]⟩
    let old : Text := ⟨[0x61, 0x61]⟩
    let new : Text := ⟨[0x61, 0x61, 0x61]⟩
    old ≠ .empty ∧ 0x78 ∉ s.units ∧ Leftmost old.units [[], [0x61, 0x62], []] ∧
      s.replace old new = ⟨[0x61, 0x61, 0x61, 0x61, 0x62, 0x61, 0x61, 0x61]⟩ ∧
      (s.replace old (.singleton 0x78)).replace (.singleton 0x78) old = s := by
  intro s old new
  have ne : old ≠ .empty := by decide
  have fresh : 0x78 ∉ s.units := by decide
  -- the first two units are the pattern, and the third one begins none
  have leftmost : Leftmost old.units [[], [0x61, 0x62], []] :=
    .next ⟨by decide, by decide⟩ (.next ⟨by decide, by decide⟩ (.last (by decide)))
  have replaced := replace_leftmost s old
  refine ⟨ne, fresh, leftmost, ?_, replaced.2.2 0x78 fresh⟩
  obtain ⟨gaps, -, -, unique, result⟩ := replaced.1 ne
  rw [← unique _ leftmost (by decide)] at result
  exact Text.ext (result new).1

end Text

end SystemUnit
