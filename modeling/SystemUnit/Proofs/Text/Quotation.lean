import SystemUnit.Text.Quoted
import SystemUnit.Text.Search
import SystemUnit.Proofs.Text.Part
import Mathlib.Algebra.Ring.Parity

namespace SystemUnit

namespace Text

/-!
# Quoted texts

Between the quotes of a quoted text each quote is doubled.  So the quotes in there come in runs of even length, and a
reader that takes two quotes in a row for one cannot take the closing quote for anything else, nor anything else for
the closing quote.

* `doubled`, `replaceUnits_doubled` — a unit written twice, which replacing two in a row by one undoes;
* `HasEvenRuns`, `doubling_induction`, `hasEvenRuns_iff` — runs of even length, which the doubling leaves and nothing
  else;
* `copy_quoted`, `replace_copy_quoted` — what stands between the quotes, and what it decodes to;
* `IsQuoted`, `isQuoted_iff` — texts that look like quoted ones, which are just those;
* `scanBody`, `scanQuoted?`, `scanQuoted?_eq_some_iff` — a reader of quoted texts, and all that it reads;
* `quoted_reads_back` — a quoted text stands for the one text that was quoted.
-/

variable {c d : CodeUnit} {units before after rest body : List CodeUnit} {s q : Text}

/-! ### A unit written twice -/

/-- A list in which a unit is written twice, wherever it stands. -/
def doubled (c : CodeUnit) (units : List CodeUnit) : List CodeUnit :=
  units.flatMap fun d => if d = c then [d, c] else [d]

@[simp] theorem doubled_nil (c : CodeUnit) : doubled c [] = [] := rfl

/-- A unit of the kind is written twice. -/
@[simp] theorem doubled_cons_self (c : CodeUnit) (units : List CodeUnit) :
    doubled c (c :: units) = c :: c :: doubled c units := by
  simp [doubled]

/-- Every other unit is written once. -/
@[simp] theorem doubled_cons_of_ne (ne : d ≠ c) (units : List CodeUnit) :
    doubled c (d :: units) = d :: doubled c units := by
  simp [doubled, ne]

/-- A quoted text, unit by unit. -/
theorem units_quoted (s : Text) : s.quoted.units = quote :: doubled quote s.units ++ [quote] := rfl

/-- Replacing two in a row by one undoes the doubling: each match from the left begins where a doubled unit does. -/
theorem replaceUnits_doubled (c : CodeUnit) (units : List CodeUnit) :
    replaceUnits [c, c] [c] (doubled c units) = units := by
  induction units with
  | nil => rw [doubled_nil, replaceUnits]
  | cons d units ih =>
    by_cases same : d = c
    · rw [same, doubled_cons_self, replaceUnits]
      simp [ih]
    · rw [doubled_cons_of_ne same, replaceUnits]
      simp [Ne.symm same, ih]

/-! ### Runs of even length -/

/-- Whether a unit stands in runs of even length only: wherever it stands `k` times in a row, with another unit or none
    on either side. -/
def HasEvenRuns (c : CodeUnit) (units : List CodeUnit) : Prop :=
  ∀ (before : List CodeUnit) (k : Nat) (after : List CodeUnit),
    units = before ++ List.replicate k c ++ after → before.getLast? ≠ some c → after.head? ≠ some c → Even k

/-- What does not end with a unit does not do so without its first one. -/
theorem getLast?_ne_of_cons (last : (d :: before).getLast? ≠ some c) : before.getLast? ≠ some c := by
  cases before with
  | nil => simp
  | cons e before => rwa [List.getLast?_cons_cons] at last

/-- Where there are no units there are no runs. -/
theorem hasEvenRuns_nil (c : CodeUnit) : HasEvenRuns c [] := by
  intro before k after split _ _
  have none := (List.append_eq_nil_iff.mp (List.append_eq_nil_iff.mp split.symm).1).2
  rw [(List.replicate_eq_nil_iff c).mp none]
  exact Even.zero

/-- Another unit in front begins no run and ends none. -/
theorem hasEvenRuns_cons_of_ne (ne : d ≠ c) : HasEvenRuns c (d :: units) ↔ HasEvenRuns c units := by
  constructor
  · intro even before k after split last next
    refine even (d :: before) k after (by rw [split]; rfl) ?_ next
    -- the other unit bounds the run behind it
    cases before with
    | nil => simpa using ne
    | cons e before => rwa [List.getLast?_cons_cons]
  · intro even before k after split last next
    cases before with
    | nil =>
      cases k with
      | zero => exact Even.zero
      | succ k => exact absurd (List.cons.inj split).1 ne
    | cons e before => exact even before k after (List.cons.inj split).2 (getLast?_ne_of_cons last) next

/-- Two in front make the first run longer by two, or are a run of their own. -/
theorem hasEvenRuns_cons_cons_self : HasEvenRuns c (c :: c :: units) ↔ HasEvenRuns c units := by
  constructor
  · intro even before k after split last next
    cases before with
    | nil =>
      -- a run in front goes on into the two
      have longer := even [] (k + 2) after (by rw [split]; rfl) nofun next
      exact (Nat.even_add.mp longer).mpr even_two
    | cons e before =>
      refine even (c :: c :: e :: before) k after (by rw [split]; rfl) ?_ next
      rwa [List.getLast?_cons_cons, List.getLast?_cons_cons]
  · intro even before k after split last next
    match before, k with
    | [], 0 => exact Even.zero
    | [], 1 =>
      -- the run would go on
      have tail : c :: units = after := (List.cons.inj split).2
      exact absurd (by rw [← tail]; rfl) next
    | [], k + 2 =>
      have shorter := even [] k after (List.cons.inj (List.cons.inj split).2).2 nofun next
      exact shorter.add even_two
    | [e], k =>
      -- the run would have begun before
      exact absurd (by rw [← (List.cons.inj split).1]; rfl) last
    | e :: f :: before, k =>
      have tail := (List.cons.inj (List.cons.inj split).2).2
      exact even before k after tail (getLast?_ne_of_cons (getLast?_ne_of_cons last)) next

/-- A unit without a second one behind it is a run of length one. -/
theorem not_hasEvenRuns_alone (next : after.head? ≠ some c) : ¬ HasEvenRuns c (c :: after) := by
  intro even
  exact Nat.not_even_one (even [] 1 after rfl nofun next)

/-- A list is empty, or begins with another unit, with the unit twice in a row, or with the unit alone. -/
@[elab_as_elim] theorem doubling_induction {motive : List CodeUnit → Prop} (c : CodeUnit) (nil : motive [])
    (other : ∀ d units, d ≠ c → motive units → motive (d :: units))
    (two : ∀ units, motive units → motive (c :: c :: units))
    (alone : ∀ units, units.head? ≠ some c → motive (c :: units)) (units : List CodeUnit) : motive units := by
  induction length : units.length using Nat.strongRecOn generalizing units with
  | ind length shorter =>
    -- two units of the kind are passed at once, so that the induction is on the length
    match units with
    | [] => exact nil
    | d :: units =>
      rw [List.length_cons] at length
      by_cases same : d = c
      · rw [same]
        match units with
        | [] => exact alone [] nofun
        | e :: units =>
          rw [List.length_cons] at length
          by_cases again : e = c
          · rw [again]
            exact two units (shorter units.length (by omega) units rfl)
          · exact alone (e :: units) (by simpa using again)
      · exact other d units same (shorter units.length (by omega) units rfl)

/-- **A unit stands in even runs exactly where it was doubled.** -/
theorem hasEvenRuns_iff : HasEvenRuns c units ↔ ∃ body, doubled c body = units := by
  constructor
  · intro even
    -- the body is read off the units as the cases go
    induction units using doubling_induction c with
    | nil => exact ⟨[], rfl⟩
    | other d units ne ih =>
      obtain ⟨body, rfl⟩ := ih ((hasEvenRuns_cons_of_ne ne).mp even)
      exact ⟨d :: body, doubled_cons_of_ne ne body⟩
    | two units ih =>
      obtain ⟨body, rfl⟩ := ih (hasEvenRuns_cons_cons_self.mp even)
      exact ⟨c :: body, doubled_cons_self c body⟩
    | alone units next => exact absurd even (not_hasEvenRuns_alone next)
  · rintro ⟨body, rfl⟩
    induction body with
    | nil => exact hasEvenRuns_nil c
    | cons d body ih =>
      by_cases same : d = c
      · rw [same, doubled_cons_self, hasEvenRuns_cons_cons_self]
        exact ih
      · rw [doubled_cons_of_ne same, hasEvenRuns_cons_of_ne same]
        exact ih

/-! ### Between the quotes -/

/-- What stands between the first unit and the last one is copied. -/
theorem copy_inner (inner : List CodeUnit) :
    let q : Text := ⟨quote :: inner ++ [quote]⟩
    q.copy 2 (q.size - 2) = ⟨inner⟩ := by
  intro q
  have count : (q.size : Int) - 2 = inner.length := by
    simp only [q, size, List.length_append, List.length_cons, List.length_nil]
    omega
  rw [count]
  exact copy_part [quote] inner [quote]

/-- Between the quotes stands the text with its own quotes doubled. -/
theorem copy_quoted (s : Text) : s.quoted.copy 2 (s.quoted.size - 2) = ⟨doubled quote s.units⟩ := copy_inner _

/-- **What stands between the quotes decodes to the text.** -/
theorem replace_copy_quoted (s : Text) :
    (s.quoted.copy 2 (s.quoted.size - 2)).replace ⟨[quote, quote]⟩ (.singleton quote) = s := by
  rw [copy_quoted]
  exact Text.ext (replaceUnits_doubled quote s.units)

/-! ### Texts that look quoted -/

/-- Whether a text begins and ends with a quote, and has quotes between these in runs of even length only. -/
structure IsQuoted (q : Text) : Prop where
  opens : q.units.head? = some quote
  closes : q.units.getLast? = some quote
  two_le_size : 2 ≤ q.size
  even : HasEvenRuns quote (q.copy 2 (q.size - 2)).units

/-- A text with a quote at either end has something in between, which may be nothing. -/
theorem IsQuoted.exists_inner (h : IsQuoted q) : ∃ inner, q = ⟨quote :: inner ++ [quote]⟩ := by
  obtain ⟨units⟩ := q
  obtain ⟨tail, rfl⟩ := List.head?_eq_some_iff.mp h.opens
  have ne : tail ≠ [] := by
    rintro rfl
    exact absurd h.two_le_size (by decide)
  have closes := h.closes
  rw [List.getLast?_cons_of_ne_nil ne] at closes
  obtain ⟨inner, rfl⟩ := List.getLast?_eq_some_iff.mp closes
  exact ⟨inner, rfl⟩

/-- **The texts that look quoted are the quoted ones.** -/
theorem isQuoted_iff (q : Text) : IsQuoted q ↔ ∃ s : Text, s.quoted = q := by
  constructor
  · intro h
    obtain ⟨inner, rfl⟩ := h.exists_inner
    -- runs of even length come from a doubling, and so the inner text is a quoted one
    have even := h.even
    rw [copy_inner, hasEvenRuns_iff] at even
    obtain ⟨body, rfl⟩ := even
    exact ⟨⟨body⟩, Text.ext (units_quoted ⟨body⟩)⟩
  · rintro ⟨s, rfl⟩
    refine ⟨rfl, ?_, ?_, ?_⟩
    · rw [units_quoted, List.getLast?_append]
      rfl
    · rw [size, units_quoted, List.length_append, List.length_cons, List.length_singleton]
      omega
    · rw [copy_quoted, hasEvenRuns_iff]
      exact ⟨s.units, rfl⟩

/-! ### A reader of quoted texts -/

/-- Reads units up to a closing one: two in a row are one of what is read, and one alone is the closing one.  There may
    be none. -/
def scanBody (c : CodeUnit) : List CodeUnit → Option (List CodeUnit × List CodeUnit)
  | [] => none
  | [d] => if d = c then some ([], []) else none
  | d :: e :: rest =>
    if d = c then
      if e = c then (scanBody c rest).map (Prod.map (c :: ·) id) else some ([], e :: rest)
    else (scanBody c (e :: rest)).map (Prod.map (d :: ·) id)

/-- The text between quotes at the start of units, and what follows the closing quote. -/
def scanQuoted? : List CodeUnit → Option (Text × List CodeUnit)
  | [] => none
  | d :: rest => if d = quote then (scanBody quote rest).map (Prod.map Text.mk id) else none

/-- A unit that is no quote is passed on. -/
theorem scanBody_cons_of_ne (ne : d ≠ c) (units : List CodeUnit) :
    scanBody c (d :: units) = (scanBody c units).map (Prod.map (d :: ·) id) := by
  cases units <;> simp [scanBody, ne]

/-- Two quotes are passed on as one. -/
theorem scanBody_cons_cons_self (c : CodeUnit) (units : List CodeUnit) :
    scanBody c (c :: c :: units) = (scanBody c units).map (Prod.map (c :: ·) id) := by
  simp [scanBody]

/-- A quote without a second one ends the body. -/
theorem scanBody_alone (next : rest.head? ≠ some c) : scanBody c (c :: rest) = some ([], rest) := by
  cases rest with
  | nil => simp [scanBody]
  | cons e rest =>
    have ne : e ≠ c := by simpa using next
    simp [scanBody, ne]

/-- What is read in front of a unit that is read as itself. -/
theorem map_cons_eq_some {scanned : Option (List CodeUnit × List CodeUnit)}
    (h : scanned.map (Prod.map (d :: ·) id) = some (body, rest)) :
    ∃ tail, body = d :: tail ∧ scanned = some (tail, rest) := by
  obtain ⟨⟨tail, behind⟩, rfl, same⟩ := Option.map_eq_some_iff.mp h
  obtain ⟨rfl, rfl⟩ := Prod.mk.inj same
  exact ⟨tail, rfl, rfl⟩

/-- **What is read is a doubled body up to a unit that stands alone**, and all of these are read. -/
theorem scanBody_eq_some_iff :
    scanBody c units = some (body, rest) ↔ units = doubled c body ++ c :: rest ∧ rest.head? ≠ some c := by
  constructor
  · intro read
    -- what a list begins with tells what is read of it
    induction units using doubling_induction c generalizing body with
    | nil => cases read
    | other d units ne ih =>
      rw [scanBody_cons_of_ne ne] at read
      obtain ⟨tail, rfl, found⟩ := map_cons_eq_some read
      obtain ⟨split, next⟩ := ih found
      rw [doubled_cons_of_ne ne, List.cons_append, ← split]
      exact ⟨rfl, next⟩
    | two units ih =>
      rw [scanBody_cons_cons_self] at read
      obtain ⟨tail, rfl, found⟩ := map_cons_eq_some read
      obtain ⟨split, next⟩ := ih found
      rw [doubled_cons_self, List.cons_append, List.cons_append, ← split]
      exact ⟨rfl, next⟩
    | alone units next =>
      rw [scanBody_alone next] at read
      cases read
      exact ⟨rfl, next⟩
  · rintro ⟨rfl, next⟩
    induction body with
    | nil => exact scanBody_alone next
    | cons d body ih =>
      by_cases same : d = c
      · rw [same, doubled_cons_self, List.cons_append, List.cons_append, scanBody_cons_cons_self, ih]
        rfl
      · rw [doubled_cons_of_ne same, List.cons_append, scanBody_cons_of_ne same, ih]
        rfl

/-- **The reader reads the quoted texts that no quote follows, and nothing else.** -/
theorem scanQuoted?_eq_some_iff :
    scanQuoted? units = some (s, rest) ↔ units = s.quoted.units ++ rest ∧ rest.head? ≠ some quote := by
  -- the opening quote is in front of the body that is scanned, the closing one behind it
  have quoted : ∀ rest, s.quoted.units ++ rest = quote :: (doubled quote s.units ++ quote :: rest) := by
    intro rest
    rw [units_quoted, List.cons_append, List.cons_append, List.append_assoc]
    rfl
  rw [quoted]
  cases units with
  | nil => simp [scanQuoted?]
  | cons d units =>
    by_cases opens : d = quote
    · have body : scanBody quote units = some (s.units, rest) ↔ scanQuoted? (d :: units) = some (s, rest) := by
        rw [scanQuoted?, if_pos opens, Option.map_eq_some_iff]
        constructor
        · intro read
          exact ⟨_, read, rfl⟩
        · rintro ⟨⟨body, behind⟩, read, same⟩
          obtain ⟨rfl, rfl⟩ := Prod.mk.inj same
          exact read
      rw [← body, scanBody_eq_some_iff, opens, List.cons.injEq, and_iff_right rfl]
    · simp [scanQuoted?, opens]

/-- **A quoted text reads back as the one text that was quoted.**  It begins and ends with a quote, and the quotes
    between these stand in runs of even length; what stands between them is the text once two quotes in a row are
    replaced by one, so that no other text is quoted like it; and a reader that takes two quotes in a row for one reads
    this text exactly from what is quoted so, and stops right behind it if no quote follows. -/
theorem quoted_reads_back (s : Text) :
    IsQuoted s.quoted ∧
      (s.quoted.copy 2 (s.quoted.size - 2)).replace ⟨[quote, quote]⟩ (.singleton quote) = s ∧
      (∀ t : Text, t.quoted = s.quoted ↔ t = s) ∧
      ∀ units rest, scanQuoted? units = some (s, rest) ↔
        units = s.quoted.units ++ rest ∧ rest.head? ≠ some quote := by
  refine ⟨(isQuoted_iff _).mpr ⟨s, rfl⟩, replace_copy_quoted s, fun t => ⟨fun same => ?_, congrArg quoted⟩,
    fun units rest => scanQuoted?_eq_some_iff⟩
  -- texts that are quoted alike are decoded alike
  rw [← replace_copy_quoted t, same, replace_copy_quoted s]

/-- A text of quotes at both ends, and the reader that stops before a unit that is no quote. -/
example : (Text.mk [quote, 0x61, quote, quote]).quoted.units =
      [quote, quote, quote, 0x61, quote, quote, quote, quote, quote] ∧
    scanQuoted? [quote, quote, quote, 0x61, quote, quote, quote, quote, quote, 0x62] =
      some (⟨[quote, 0x61, quote, quote]⟩, [0x62]) := by
  decide

end Text

end SystemUnit
