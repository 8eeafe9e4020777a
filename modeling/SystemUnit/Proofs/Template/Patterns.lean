import SystemUnit.Template.Piece
import SystemUnit.Proofs.Template.Counts
import Mathlib.Data.List.Chain

namespace SystemUnit

/-!
# Patterns as they are written

A pattern is written item by item: text with its percent signs doubled, and directives with their flags in any
order and number.  It is read back as the items, but for what no pattern tells apart: where one text ends and
the next begins.

* `WrittenDirective`, `Item` — what may be written, and its text;
* `Piece.merge`, `Piece.IsMerged` — pieces without empty texts and without neighbouring ones;
* `Directive.scan_text` — a written directive is read back, whatever follows it;
* `Piece.isMerged_ofPattern` — the pieces of any pattern are merged;
* `Piece.ofPattern_items` — the pieces of written items are the items, merged.
-/

variable {c : Char} {cs rest : List Char}

/-! ### Flags -/

/-- The characters of flags. -/
def flagChars : List Char := ['-', '+', ' ', '#', '0']

namespace Flags

/-- The flags of a word of flag characters, in any order and number. -/
def ofChars (cs : List Char) : Flags where
  left := cs.contains '-'
  plus := cs.contains '+'
  space := cs.contains ' '
  alternate := cs.contains '#'
  zero := cs.contains '0'

/-- The flags of both. -/
def union (f g : Flags) : Flags where
  left := f.left || g.left
  plus := f.plus || g.plus
  space := f.space || g.space
  alternate := f.alternate || g.alternate
  zero := f.zero || g.zero

@[simp] theorem union_nil (f : Flags) : f.union (ofChars []) = f := by
  simp [union, ofChars]

@[simp] theorem empty_union (f : Flags) : ({ } : Flags).union f = f := by
  simp [union]

/-- To have a flag and then others is to have all of them. -/
theorem union_cons (f : Flags) (c : Char) (cs : List Char) :
    (f.union (ofChars [c])).union (ofChars cs) = f.union (ofChars (c :: cs)) := by
  simp [union, ofChars, Bool.or_assoc]

/-- A character that is a flag is added to the flags. -/
theorem add?_of_mem (f : Flags) (h : c ∈ flagChars) : f.add? c = some (f.union (ofChars [c])) := by
  simp only [flagChars, List.mem_cons, List.not_mem_nil, or_false] at h
  rcases h with rfl | rfl | rfl | rfl | rfl <;> simp [add?, union, ofChars]

/-- Any other character ends the flags. -/
theorem add?_of_not_mem (f : Flags) (h : c ∉ flagChars) : f.add? c = none := by
  simp only [flagChars, List.mem_cons, List.not_mem_nil, or_false, not_or] at h
  obtain ⟨left, plus, space, alternate, zero⟩ := h
  simp only [add?]

/-- **All flags at the start are read**, up to a character that is none. -/
theorem scan_append (f : Flags) (all : ∀ c ∈ cs, c ∈ flagChars) (h : StartsWithout flagChars.contains rest) :
    f.scan (cs ++ rest) = (f.union (ofChars cs), rest) := by
  induction cs generalizing f with
  | nil =>
    rw [union_nil]
    -- what follows does not begin with a flag
    cases rest with
    | nil => rfl
    | cons c rest =>
      have none : f.add? c = Option.none := add?_of_not_mem f (by simpa using h)
      simp [scan, none]
  | cons c cs ih =>
    have added := add?_of_mem f (all c List.mem_cons_self)
    have ih := ih (f.union (ofChars [c])) fun d hd => all d (List.mem_cons_of_mem c hd)
    rw [union_cons] at ih
    simp [scan, added, ih]

/-- No flag is left at the start. -/
theorem startsWithout_scan (f : Flags) (cs : List Char) : StartsWithout flagChars.contains (f.scan cs).2 := by
  induction cs generalizing f with
  | nil => exact startsWithout_nil
  | cons c cs ih =>
    by_cases flag : c ∈ flagChars
    · simpa [scan, add?_of_mem f flag] using ih (f.union (ofChars [c]))
    · simpa [scan, add?_of_not_mem f flag] using flag

end Flags

/-! ### Written directives -/

/-- The letters of a conversion; what is no conversion has none. -/
def Conversion.letters : Conversion → List Char
  | signed => ['d', 'i']
  | unsigned => ['u']
  | hex => ['x']
  | hexUpper => ['X']
  | fixed => ['f', 'F']
  | exponent => ['e']
  | exponentUpper => ['E']
  | general => ['g']
  | generalUpper => ['G']
  | text => ['s']
  | char => ['c']
  | pointer => ['p']
  | unknown _ | missing => []

/-- A letter stands for its conversion, and is no other part of a directive. -/
theorem Conversion.letter_spec {k : Conversion} (h : c ∈ k.letters) :
    ofChar c = k ∧ c.isDigit = false ∧ c ≠ '.' ∧ c ≠ '%' ∧ c ∉ flagChars := by
  cases k with
  | unknown | missing => cases h
  | _ =>
    simp only [letters, List.mem_cons, List.not_mem_nil, or_false] at h
    rcases h with rfl | rfl <;> decide

/-- A directive as it is written.  A width is not zero, since a zero in its place is a flag. -/
structure WrittenDirective where
  flags : List Char
  width : Option UInt64
  precision : Option UInt64
  conversion : Conversion
  letter : Char
  flags_mem : ∀ c ∈ flags, c ∈ flagChars
  width_ne_zero : width ≠ some 0
  letter_mem : letter ∈ conversion.letters

namespace WrittenDirective

/-- The directive behind the percent sign. -/
def text (w : WrittenDirective) : List Char :=
  w.flags ++ (widthText w.width ++ (precisionText w.precision ++ [w.letter]))

/-- What is written. -/
def directive (w : WrittenDirective) : Directive where
  flags := .ofChars w.flags
  width := w.width
  precision := w.precision
  conversion := w.conversion

variable {kind : Char → Bool}

/-- What stands behind the flags starts with no character that is neither a digit, nor the point, nor the
    letter. -/
theorem startsWithout_counts (w : WrittenDirective)
    (digit : ∀ c, c.isDigit = true → c ≠ '0' → kind c = false) (point : kind '.' = false)
    (letter : kind w.letter = false) (rest : List Char) :
    StartsWithout kind (widthText w.width ++ (precisionText w.precision ++ w.letter :: rest)) :=
  startsWithout_widthText digit w.width_ne_zero
    (startsWithout_precisionText point (startsWithout_cons.mpr letter))

end WrittenDirective

/-- **A written directive is read back**, whatever follows it. -/
theorem Directive.scan_text (w : WrittenDirective) (rest : List Char) :
    scan (w.text ++ rest) = (w.directive, rest) := by
  obtain ⟨conversion, digit, point, -, flag⟩ := Conversion.letter_spec w.letter_mem
  have whole : w.text ++ rest =
      w.flags ++ (widthText w.width ++ (precisionText w.precision ++ w.letter :: rest)) := by
    simp [WrittenDirective.text]
  have flags : Flags.scan { } (w.text ++ rest) =
      (.ofChars w.flags, widthText w.width ++ (precisionText w.precision ++ w.letter :: rest)) := by
    -- a width goes on the flags only with a zero, and has none in front
    have other : ∀ c, c.isDigit = true → c ≠ '0' → flagChars.contains c = false := by
      intro c digit ne
      have none : ∀ d ∈ flagChars, d.isDigit = true → d = '0' := by simp [flagChars]
      simpa using fun mem => ne (none c mem digit)
    have start := w.startsWithout_counts other rfl (by simpa using flag) rest
    rw [whole, Flags.scan_append { } w.flags_mem start, Flags.empty_union]
  have width : scanCount (widthText w.width ++ (precisionText w.precision ++ w.letter :: rest)) =
      (w.width, precisionText w.precision ++ w.letter :: rest) :=
    scanCount_widthText (startsWithout_precisionText rfl (startsWithout_cons.mpr digit))
  have precision : scanPrecision (precisionText w.precision ++ w.letter :: rest) =
      (w.precision, w.letter :: rest) :=
    scanPrecision_precisionText (startsWithout_cons.mpr digit) (startsWithout_cons.mpr (by simpa using point))
  simp [scan, flags, width, precision, scanConversion, conversion, WrittenDirective.directive]

/-- A written directive starts with no percent sign, or it would be a doubled one. -/
theorem WrittenDirective.text_eq_cons (w : WrittenDirective) : ∃ c cs, w.text = c :: cs ∧ c ≠ '%' := by
  obtain ⟨-, -, -, letter, -⟩ := Conversion.letter_spec w.letter_mem
  -- neither a flag nor a digit nor the letter of a conversion is a percent sign
  have start : StartsWithout (· == '%') w.text := by
    refine StartsWithout.append (fun c hc => ?_) ?_
    · have none : ∀ c ∈ flagChars, (c == '%') = false := by simp [flagChars]
      exact none c (w.flags_mem c hc)
    · refine w.startsWithout_counts (fun c digit _ => ?_) rfl (by simpa using letter) []
      rw [beq_eq_false_iff_ne]
      rintro rfl
      cases digit
  -- the letter of the conversion is there in any case
  cases text : w.text with
  | nil => simp [WrittenDirective.text] at text
  | cons c cs =>
    rw [text, startsWithout_cons] at start
    exact ⟨c, cs, rfl, by simpa using start⟩

/-! ### Items -/

/-- What a pattern is written from. -/
inductive Item where
  | literal (text : List Char)
  | directive (w : WrittenDirective)

namespace Item

/-- Text with its percent signs doubled. -/
def escaped (text : List Char) : List Char :=
  text.flatMap fun c => if c = '%' then ['%', '%'] else [c]

/-- An item as it is written. -/
def text : Item → List Char
  | literal text => escaped text
  | directive w => '%' :: w.text

/-- The piece that an item is. -/
def piece : Item → Piece
  | literal text => .literal text
  | directive w => .directive w.directive

end Item

namespace Piece

/-- Whether a piece is text. -/
def isLiteral : Piece → Bool
  | literal _ => true
  | directive _ => false

/-- Pieces without empty texts, neighbouring texts put together. -/
def merge : List Piece → List Piece
  | [] => []
  | directive d :: pieces => directive d :: merge pieces
  | literal [] :: pieces => merge pieces
  | literal (c :: text) :: pieces =>
    match merge pieces with
    | literal more :: rest => literal (c :: text ++ more) :: rest
    | rest => literal (c :: text) :: rest

/-- Whether no text is empty, and no two texts are neighbours. -/
structure IsMerged (pieces : List Piece) : Prop where
  nonempty : literal [] ∉ pieces
  apart : pieces.IsChain fun p q => p.isLiteral = true → q.isLiteral = false

variable {pieces : List Piece}

/-! ### Text before pieces -/

/-- Text before a text goes into it. -/
theorem foldr_cons_literal (text more : List Char) (pieces : List Piece) :
    text.foldr cons (literal more :: pieces) = literal (text ++ more) :: pieces := by
  induction text with
  | nil => rfl
  | cons c text ih =>
    rw [List.foldr_cons, ih]
    rfl

/-- A character before anything else is a text of its own. -/
theorem cons_of_not_literal (h : ∀ p ∈ pieces.head?, p.isLiteral = false) (c : Char) :
    cons c pieces = literal [c] :: pieces := by
  match pieces with
  | [] => rfl
  | directive d :: rest => rfl
  | literal text :: rest => cases h _ rfl

/-- So is a whole text that is not empty. -/
theorem foldr_cons_of_not_literal (h : ∀ p ∈ pieces.head?, p.isLiteral = false) (c : Char)
    (text : List Char) : (c :: text).foldr cons pieces = literal (c :: text) :: pieces := by
  induction text generalizing c with
  | nil => exact cons_of_not_literal h c
  | cons d text ih =>
    rw [List.foldr_cons, ih d]
    rfl

/-- Merging text with what follows is putting its characters before that, one by one. -/
theorem merge_literal (text : List Char) (pieces : List Piece) :
    merge (literal text :: pieces) = text.foldr cons (merge pieces) := by
  cases text with
  | nil => rw [merge, List.foldr_nil]
  | cons c text =>
    rw [merge]
    -- the characters go into a text that follows, or make one of their own
    split
    · rename_i more rest merged
      rw [merged, foldr_cons_literal]
    · rename_i rest other
      refine (foldr_cons_of_not_literal (fun p hp => ?_) c text).symm
      match merged : merge pieces, hp with
      | directive d :: tail, hp =>
        cases hp
        rfl
      | literal more :: tail, _ => exact absurd merged (other more tail)

/-! ### Reading a pattern -/

/-- A character that is no percent sign stands for itself. -/
theorem ofPattern_cons (ne : c ≠ '%') (rest : List Char) :
    ofPattern (c :: rest) = cons c (ofPattern rest) := by
  rw [ofPattern.eq_def]
  exact if_neg ne

/-- Two percent signs stand for one. -/
theorem ofPattern_doubled (rest : List Char) :
    ofPattern ('%' :: '%' :: rest) = cons '%' (ofPattern rest) := by
  rw [ofPattern, if_pos rfl]
  exact if_pos rfl

/-- Behind a single percent sign a directive is read. -/
theorem ofPattern_directive (ne : c ≠ '%') (rest : List Char) :
    ofPattern ('%' :: c :: rest) =
      directive (Directive.scan (c :: rest)).1 :: ofPattern (Directive.scan (c :: rest)).2 := by
  rw [ofPattern, if_pos rfl]
  exact if_neg ne

/-- Text with its percent signs doubled is read back, character by character. -/
theorem ofPattern_escaped (text rest : List Char) :
    ofPattern (Item.escaped text ++ rest) = text.foldr cons (ofPattern rest) := by
  induction text with
  | nil => rfl
  | cons c text ih =>
    have step : Item.escaped (c :: text) = (if c = '%' then ['%', '%'] else [c]) ++ Item.escaped text := by
      simp [Item.escaped]
    rw [step, List.append_assoc, List.foldr_cons, ← ih]
    split
    · rename_i percent
      rw [percent]
      exact ofPattern_doubled _
    · rename_i ne
      exact ofPattern_cons ne _

/-- **Written items are read back**, as far as texts can be told apart. -/
theorem ofPattern_items (items : List Item) :
    ofPattern (items.flatMap Item.text) = merge (items.map Item.piece) := by
  -- over the items: an item in front is read up to its end, whatever the rest is
  induction items with
  | nil => simp [ofPattern, merge]
  | cons item items ih =>
    rw [List.flatMap_cons, List.map_cons]
    cases item with
    | literal text =>
      show ofPattern (Item.escaped text ++ items.flatMap Item.text) = merge (literal text :: _)
      rw [ofPattern_escaped, ih, merge_literal]
    | directive w =>
      show ofPattern ('%' :: (w.text ++ items.flatMap Item.text)) = merge (directive w.directive :: _)
      obtain ⟨c, cs, text, ne⟩ := w.text_eq_cons
      have scanned := Directive.scan_text w (items.flatMap Item.text)
      rw [text, List.cons_append] at scanned ⊢
      rw [ofPattern_directive ne, scanned, ih, merge]

/-! ### Merged pieces -/

/-- No pieces are merged. -/
theorem isMerged_nil : IsMerged [] := ⟨List.not_mem_nil, List.isChain_nil⟩

/-- A directive may stand before anything. -/
theorem IsMerged.directive (h : IsMerged pieces) (d : Directive) : IsMerged (.directive d :: pieces) where
  nonempty := by simpa using h.nonempty
  apart := by
    cases pieces with
    | nil => exact List.isChain_singleton _
    | cons p pieces => exact List.isChain_cons_cons.mpr ⟨fun text => absurd text Bool.false_ne_true, h.apart⟩

/-- A character before merged pieces goes into the text that they begin with, or begins one. -/
theorem IsMerged.cons (h : IsMerged pieces) (c : Char) : IsMerged (cons c pieces) := by
  match pieces, h with
  -- nothing, a directive, or a text that grows
  | [], _ => exact ⟨by simp [Piece.cons], List.isChain_singleton _⟩
  | .directive d :: rest, h =>
    have nonempty := h.nonempty
    refine ⟨?_, List.isChain_cons_cons.mpr ⟨fun _ => rfl, h.apart⟩⟩
    simpa [Piece.cons] using nonempty
  | literal text :: rest, h =>
    have nonempty := h.nonempty
    have apart := h.apart
    refine ⟨?_, ?_⟩
    · simp only [Piece.cons, List.mem_cons, not_or] at nonempty ⊢
      exact ⟨by simp, nonempty.2⟩
    · -- what follows the text is the same as before
      cases rest with
      | nil => exact List.isChain_singleton _
      | cons q rest =>
        obtain ⟨next, apart⟩ := List.isChain_cons_cons.mp apart
        exact List.isChain_cons_cons.mpr ⟨next, apart⟩

/-- **The pieces of any pattern are merged.** -/
theorem isMerged_ofPattern (pattern : List Char) : IsMerged (ofPattern pattern) := by
  fun_induction ofPattern pattern with
  | case1 => exact isMerged_nil
  | case2 => exact isMerged_nil.cons _
  | case3 _ ih => exact ih.cons _
  | case4 _ _ _ ih => exact ih.directive _
  | case5 _ _ _ ih => exact ih.cons _

/-- **Reading a pattern undoes writing it**: the pieces of written items are the items, without empty texts and
    with neighbouring texts put together.  All pieces are such, whether they were written or not. -/
theorem ofPattern_undoes_writing :
    (∀ items : List Item, ofPattern (items.flatMap Item.text) = merge (items.map Item.piece)) ∧
      ∀ pattern : List Char, IsMerged (ofPattern pattern) :=
  ⟨ofPattern_items, isMerged_ofPattern⟩

/-- A doubled percent sign before a directive, flags twice and in any order, and one at the end that is text. -/
example : ofPattern "5%%%0-+-5.2f6%%7%".toList =
    [literal ['5', '%'], directive ⟨{ left := true, plus := true, zero := true }, some 5, some 2, .fixed⟩,
      literal ['6', '%', '7', '%']] := by
  decide +kernel

end Piece

end SystemUnit
