import SystemUnit.Proofs.Template.Counts

namespace SystemUnit

namespace FieldSpec

/-!
# Specifications and their texts

A text of a specification is read from left to right, each part by its first character.  So a part must not be
taken for another one, and what is not written cannot be read back.

* `IsExpressible` — specifications whose fill has an alignment to stand before, and whose width of zero stands
  behind a zero that is not its own;
* `text_eq`, `markedText`, `numberText` — the parts of a text, and the characters that they may hold;
* `isExpressible_parse` — what is read is expressible;
* `parse_text` — what is expressible is read back;
* `parse_text_exact` — so those are the specifications that their texts stand for.
-/

variable {c : Char} {cs rest : List Char} {s : FieldSpec}

/-- Whether a text can say all of a specification. -/
def IsExpressible (s : FieldSpec) : Prop :=
  (s.fill = none ∨ s.align.isSome = true) ∧ (s.width ≠ some 0 ∨ s.zeroPad = true)

instance (s : FieldSpec) : Decidable s.IsExpressible := inferInstanceAs (Decidable (_ ∧ _))

/-! ### Parts of a text -/

/-- The letter of a form. -/
def letterText (s : FieldSpec) : List Char := s.presentation.toList.map Presentation.toChar

/-- What stands behind the marks: the zero, the counts and the letter. -/
def numberText (s : FieldSpec) : List Char :=
  (if s.zeroPad then ['0'] else []) ++ (widthText s.width ++ (precisionText s.precision ++ s.letterText))

/-- What stands behind the alignment: the marks and the rest. -/
def markedText (s : FieldSpec) : List Char :=
  s.sign.toList.map SignMark.toChar ++ ((if s.alternate then ['#'] else []) ++ s.numberText)

/-- The alignment, with the fill before it. -/
def alignmentText (s : FieldSpec) : List Char :=
  s.align.elim [] fun a => s.fill.toList ++ [a.toChar]

/-- The text of a specification: its alignment, and all that comes behind it. -/
theorem text_eq (s : FieldSpec) : s.text = s.alignmentText ++ s.markedText := by
  unfold text alignmentText markedText numberText letterText widthText precisionText
  cases s.align <;> cases s.width <;> cases s.precision <;> simp [List.append_assoc]

/-- The characters that may stand behind the marks. -/
def numberChars : List Char :=
  ['0', '1', '2', '3', '4', '5', '6', '7', '8', '9', '.', 'd', 'x', 'X', 'f', 'e', 'E', 'g', 'G', 'p']

/-- The characters that may stand behind the alignment. -/
def markedChars : List Char := ['+', '-', ' ', '#'] ++ numberChars

/-- A digit may stand behind the marks. -/
theorem isDigit_mem_numberChars (h : c.isDigit = true) : c ∈ numberChars := by
  have range : 0x30 ≤ c.toNat ∧ c.toNat ≤ 0x39 := by
    rw [Char.isDigit, Bool.and_eq_true, decide_eq_true_eq, decide_eq_true_eq] at h
    exact ⟨UInt32.le_iff_toNat_le.mp h.1, UInt32.le_iff_toNat_le.mp h.2⟩
  -- the digits are ten code points in a row
  have all : ∀ k < 10, Char.ofNat (0x30 + k) ∈ numberChars := by decide
  have at_c := all (c.toNat - 0x30) (by omega)
  rw [Nat.add_sub_cancel' range.1, Char.ofNat_toNat] at at_c
  exact at_c

/-- So may a point, and the letter of a presentation; and nothing else does. -/
theorem mem_numberText (h : c ∈ s.numberText) : c ∈ numberChars := by
  -- the zero, the width, the precision and the letter, one after another
  rcases List.mem_append.mp h with zero | h
  · split at zero
    · rw [List.mem_singleton.mp zero]
      decide
    · cases zero
  rcases List.mem_append.mp h with width | h
  · exact isDigit_mem_numberChars (isDigit_of_mem_widthText width)
  rcases List.mem_append.mp h with precision | letter
  · rcases mem_precisionText precision with rfl | digit
    · decide
    · exact isDigit_mem_numberChars digit
  · obtain ⟨t, -, rfl⟩ := List.mem_map.mp letter
    cases t <;> decide

/-- Behind the alignment there are signs and marks, and what may stand behind those. -/
theorem mem_markedText (h : c ∈ s.markedText) : c ∈ markedChars := by
  rcases List.mem_append.mp h with sign | h
  · obtain ⟨m, -, rfl⟩ := List.mem_map.mp sign
    cases m <;> decide
  rcases List.mem_append.mp h with mark | h
  · split at mark
    · rw [List.mem_singleton.mp mark]
      decide
    · cases mark
  · exact List.mem_append_right _ (mem_numberText h)

/-! ### Reading part by part -/

/-- Each part is read from where the one before it ends. -/
theorem parse_eq (cs : List Char) :
    parse cs =
      let alignment := scanAlignment cs
      let sign := scanSign alignment.2
      let mark := scanMark '#' sign.2
      let zero := scanMark '0' mark.2
      let width := scanCount zero.2
      let precision := scanPrecision width.2
      { fill := alignment.1.1, align := alignment.1.2, sign := sign.1, alternate := mark.1, zeroPad := zero.1,
        width := width.1, precision := precision.1,
        presentation := precision.2.head?.bind Presentation.ofChar? } := rfl

/-- A text without the sign of an alignment has none to be read. -/
theorem scanAlignment_of_none (none : ∀ c ∈ cs, Alignment.ofChar? c = none) :
    scanAlignment cs = ((Option.none, Option.none), cs) := by
  match cs with
  | [] => rfl
  | [c] => simp [scanAlignment, none c]
  | c :: d :: rest => simp [scanAlignment, none c, none d]

/-- The alignment is read back, with its fill. -/
theorem scanAlignment_text (fill : s.fill = none ∨ s.align.isSome = true) :
    scanAlignment s.text = ((s.fill, s.align), s.markedText) := by
  have none : ∀ c ∈ s.markedText, Alignment.ofChar? c = none := by
    -- the signs of alignments are none of the characters behind them
    have all : ∀ c ∈ markedChars, Alignment.ofChar? c = none := by
      simp [markedChars, numberChars, Alignment.ofChar?]
    exact fun c hc => all c (mem_markedText hc)
  rw [text_eq, alignmentText]
  cases align : s.align with
  | none =>
    rw [fill.resolve_right (by simp [align])]
    exact scanAlignment_of_none none
  | some a =>
    cases s.fill with
    | none =>
      -- the character behind the alignment is none, or `a` would be a fill
      show scanAlignment (a.toChar :: s.markedText) = _
      cases tail : s.markedText with
      | nil => simp [scanAlignment]
      | cons d rest =>
        have next : Alignment.ofChar? d = Option.none := none d (by simp [tail])
        simp [scanAlignment, next]
    | some f =>
      show scanAlignment (f :: a.toChar :: s.markedText) = _
      simp [scanAlignment]

/-- A sign is read back, also one that is not there. -/
theorem scanSign_append {sign : Option SignMark} (h : StartsWithout (fun c => (SignMark.ofChar? c).isSome) rest) :
    scanSign (sign.toList.map SignMark.toChar ++ rest) = (sign, rest) := by
  cases sign with
  | none =>
    show scanSign rest = (none, rest)
    cases rest with
    | nil => rfl
    | cons c rest =>
      have none : SignMark.ofChar? c = none := by simpa using h
      simp [scanSign, none]
  | some m =>
    show scanSign (m.toChar :: rest) = (some m, rest)
    simp [scanSign]

/-- So is a mark. -/
theorem scanMark_append {mark : Char} {isSet : Bool} (h : isSet = false → StartsWithout (· == mark) rest) :
    scanMark mark ((if isSet then [mark] else []) ++ rest) = (isSet, rest) := by
  cases isSet with
  | true => simp [scanMark]
  | false =>
    show scanMark mark rest = (false, rest)
    cases rest with
    | nil => rfl
    | cons c rest =>
      have ne : c ≠ mark := by simpa using h rfl
      simp [scanMark, ne]

/-- The text of a presentation begins with its letter, if it has one. -/
theorem startsWithout_letterText {kind : Char → Bool} (h : ∀ t : Presentation, kind t.toChar = false) :
    StartsWithout kind s.letterText := by
  unfold letterText
  cases s.presentation with
  | none => exact startsWithout_nil
  | some t => exact startsWithout_cons.mpr (h t)

/-- The letter is read back. -/
theorem head?_letterText (s : FieldSpec) : s.letterText.head?.bind Presentation.ofChar? = s.presentation := by
  unfold letterText
  cases s.presentation <;> simp

/-- **What is expressible is read back.** -/
theorem parse_text (h : s.IsExpressible) : parse s.text = s := by
  obtain ⟨fill, width⟩ := h
  have number : ∀ c ∈ s.numberText, SignMark.ofChar? c = none ∧ c ≠ '#' := by
    have all : ∀ c ∈ numberChars, SignMark.ofChar? c = none ∧ c ≠ '#' := by
      simp [numberChars, SignMark.ofChar?]
    exact fun c hc => all c (mem_numberText hc)
  have alignment := scanAlignment_text fill
  -- behind the sign stands no other one, and behind the mark no other one
  have sign : scanSign s.markedText = (s.sign, (if s.alternate then ['#'] else []) ++ s.numberText) := by
    refine scanSign_append (startsWithout_of_mem fun c hc => ?_)
    rcases List.mem_append.mp hc with mark | hc
    · split at mark
      · rw [List.mem_singleton.mp mark]
        rfl
      · cases mark
    · rw [(number c hc).1]
      rfl
  have mark : scanMark '#' ((if s.alternate then ['#'] else []) ++ s.numberText) =
      (s.alternate, s.numberText) :=
    scanMark_append fun _ => startsWithout_of_mem fun c hc => by simpa using (number c hc).2
  have letter : ∀ t : Presentation, t.toChar.isDigit = false ∧ t.toChar ≠ '.' ∧ t.toChar ≠ '0' := by
    intro t
    cases t <;> decide
  have zero : scanMark '0' s.numberText =
      (s.zeroPad, widthText s.width ++ (precisionText s.precision ++ s.letterText)) := by
    refine scanMark_append fun off => ?_
    -- no zero was written, so the width is not zero, and its first digit is not
    have ne : s.width ≠ some 0 := width.resolve_right (by simp [off])
    refine startsWithout_widthText (fun c _ other => by simpa using other) ne ?_
    exact startsWithout_precisionText rfl (startsWithout_letterText fun t => by simpa using (letter t).2.2)
  have digits : scanCount (widthText s.width ++ (precisionText s.precision ++ s.letterText)) =
      (s.width, precisionText s.precision ++ s.letterText) :=
    scanCount_widthText (startsWithout_precisionText rfl (startsWithout_letterText fun t => (letter t).1))
  have precision : scanPrecision (precisionText s.precision ++ s.letterText) = (s.precision, s.letterText) :=
    scanPrecision_precisionText (startsWithout_letterText fun t => (letter t).1)
      (startsWithout_letterText fun t => by simpa using (letter t).2.1)
  simp only [parse_eq, alignment, sign, mark, zero, digits, precision, head?_letterText]

/-! ### What is read -/

/-- A fill is read only before an alignment. -/
theorem scanAlignment_fill (cs : List Char) :
    (scanAlignment cs).1.1 = none ∨ (scanAlignment cs).1.2.isSome = true := by
  fun_cases scanAlignment cs <;> simp_all

/-- Where a mark is not read, none is there. -/
theorem scanMark_snd (mark : Char) (cs : List Char) :
    StartsWithout (· == mark) (scanMark mark cs).2 ∨ (scanMark mark cs).1 = true := by
  cases cs with
  | nil => exact .inl startsWithout_nil
  | cons c cs =>
    by_cases is : c = mark
    · exact .inr (by simp [scanMark, is])
    · exact .inl (by simp [scanMark, is])

/-- **What is read is expressible**: a fill is read with an alignment only, and the first of two zeros is no
    width. -/
theorem isExpressible_parse (cs : List Char) : (parse cs).IsExpressible := by
  rw [parse_eq]
  refine ⟨scanAlignment_fill cs, ?_⟩
  -- either a zero was read, or the digits of the width start with none
  rcases scanMark_snd '0' (scanMark '#' (scanSign (scanAlignment cs).2).2).2 with other | zero
  · exact .inl (scanCount_ne_zero other)
  · exact .inr zero

/-- **A text stands for its specification exactly if a text can.**  Each text that is read is such a
    specification's, so what was read once is read from its own text again. -/
theorem parse_text_exact :
    (∀ s : FieldSpec, parse s.text = s ↔ s.IsExpressible) ∧
      (∀ cs : List Char, (parse cs).IsExpressible) ∧
      ∀ cs : List Char, parse (parse cs).text = parse cs := by
  refine ⟨fun s => ⟨fun same => ?_, parse_text⟩, isExpressible_parse, fun cs => ?_⟩
  · rw [← same]
    exact isExpressible_parse s.text
  · exact parse_text (isExpressible_parse cs)

/-- A fill has no place in a text without an alignment, nor has a width of zero without the zero before it. -/
example : ¬ IsExpressible { fill := some '*', width := some 5 } ∧ ¬ IsExpressible { width := some 0 } := by
  decide

/-- A fill that looks like an alignment, and a width of zero behind the zero that is not its own. -/
example : parse "<>-#000.7g".toList =
    { fill := some '<', align := some .right, sign := some .minus, alternate := true, zeroPad := true,
      width := some 0, precision := some 7, presentation := some .general } := by
  decide

end FieldSpec

end SystemUnit
