import SystemUnit.Proofs.Template.Patterns
import SystemUnit.Proofs.Template.SpecText
import SystemUnit.Proofs.Format.Outcome
import SystemUnit.Proofs.Text.Recoding

namespace SystemUnit

/-!
# Templates and their groups

A template is text with groups, specifications between braces.  It is cut at its groups again without regard to
the pattern that it was made from, and what the groups say is what the directives of the pattern ask for.

* `TemplatePart.cut` — a template cut at its groups;
* `Piece.isExpressible_of_mem` — what a directive asks for, a text can say;
* `Piece.cut_template` — the parts of a template are the pieces of its pattern;
* `Piece.template_keeps_slots` — so a template has the slots of its pattern, and formatting fills them in.
-/

variable {c : Char} {cs rest : List Char}

/-! ### Cutting a template -/

/-- A part of a template: text, or what stands between the braces of a group. -/
inductive TemplatePart where
  | text (t : List Char)
  | group (spec : List Char)
  deriving DecidableEq

namespace TemplatePart

/-- Puts a character of text before the parts, into the first one if that is text. -/
def cons (c : Char) : List TemplatePart → List TemplatePart
  | text t :: rest => text (c :: t) :: rest
  | parts => text [c] :: parts

/-- A template cut at its groups.  A brace and a colon open a group, and the next closing brace ends it. -/
def cut : List Char → List TemplatePart
  | [] => []
  | c :: rest =>
    if c = '\x7b' ∧ rest.head? = some ':' then
      group (rest.tail.takeWhile (· ≠ '\x7d')) :: cut (rest.tail.dropWhile (· ≠ '\x7d')).tail
    else cons c (cut rest)
  termination_by cs => cs.length
  decreasing_by
    · have dropped := (List.dropWhile_suffix (l := rest.tail) fun c => decide (c ≠ '\x7d')).length_le
      simp only [List.length_tail, List.length_cons] at dropped ⊢
      omega
    · simp only [List.length_cons]
      omega

/-- A part as a slot: a group says what field it is. -/
def slot : TemplatePart → Slot
  | text t => .text t
  | group spec => .field (.parse spec)

/-- An empty template has no parts. -/
theorem cut_nil : cut [] = [] := by
  rw [cut]

/-- A character that is no brace goes into the text that follows, or begins one. -/
theorem cut_cons (ne : c ≠ '\x7b') (rest : List Char) : cut (c :: rest) = cons c (cut rest) := by
  rw [cut, if_neg fun opens => ne opens.1]

/-- A group is cut out as a whole. -/
theorem cut_group {spec : List Char} (inside : ∀ c ∈ spec, c ≠ '\x7d') (rest : List Char) :
    cut ('\x7b' :: ':' :: (spec ++ '\x7d' :: rest)) = group spec :: cut rest := by
  have all : ∀ c ∈ spec, decide (c ≠ '\x7d') = true := fun c hc => decide_eq_true (inside c hc)
  rw [cut, if_pos ⟨rfl, rfl⟩, List.tail_cons, List.takeWhile_append_of_pos all,
    List.dropWhile_append_of_pos all]
  simp

end TemplatePart

/-! ### What directives ask for -/

/-- A width that is read is not zero: flags take all zeros in front of it. -/
theorem Directive.width_scan (cs : List Char) : (scan cs).1.width ≠ some 0 := by
  have start := Flags.startsWithout_scan { } cs
  refine scanCount_ne_zero fun c hc => ?_
  have other := start c hc
  rw [beq_eq_false_iff_ne]
  rintro rfl
  exact absurd other (by decide)

/-- **What a directive asks for, a text can say.**  A width of zero comes from a precision only, and zeros fill
    it. -/
theorem Directive.isExpressible_fieldSpec (cs : List Char) : (scan cs).1.fieldSpec.IsExpressible := by
  have width := width_scan cs
  generalize (scan cs).1 = d at width
  refine ⟨.inl rfl, ?_⟩
  unfold fieldSpec
  -- the precision of an integer is its width, and the only one that may be zero
  cases decimal : d.conversion.isDecimal with
  | false => exact .inl (by simpa [decimal] using width)
  | true =>
    cases precision : d.precision with
    | none => exact .inl (by simpa [precision, decimal] using width)
    | some n => exact .inr rfl

namespace FieldSpec

/-- No brace stands in the text of a specification without a fill. -/
theorem ne_brace_of_mem_text {s : FieldSpec} (fill : s.fill = none) (h : c ∈ s.text) : c ≠ '\x7d' := by
  rw [text_eq] at h
  -- only a fill could be a brace, and there is none
  rcases List.mem_append.mp h with alignment | marked
  · unfold alignmentText at alignment
    rw [fill] at alignment
    cases align : s.align with
    | none => simp [align] at alignment
    | some a =>
      have sign : c = a.toChar := by simpa [align] using alignment
      rw [sign]
      cases a <;> decide
  · have all : ∀ c ∈ markedChars, c ≠ '\x7d' := by simp [markedChars, numberChars]
    exact all c (mem_markedText marked)

end FieldSpec

namespace Piece

variable {pieces : List Piece} {d : Directive}

/-- The part of a template that a piece becomes. -/
def part : Piece → TemplatePart
  | literal t => .text t
  | directive d => .group d.fieldSpec.text

/-- Whether no text opens a group. -/
def IsPlain (pieces : List Piece) : Prop := ∀ t, literal t ∈ pieces → '\x7b' ∉ t

/-- A character before pieces makes no directive, and unmakes none. -/
theorem mem_cons_directive : directive d ∈ cons c pieces ↔ directive d ∈ pieces := by
  match pieces with
  | [] => simp [cons]
  | directive _ :: rest => simp [cons]
  | literal _ :: rest => simp [cons]

/-- Pieces with a character before them are plain if they are, and the character is no brace. -/
theorem isPlain_cons : IsPlain (cons c pieces) ↔ c ≠ '\x7b' ∧ IsPlain pieces := by
  unfold IsPlain
  match pieces with
  | [] => simp [cons, eq_comm]
  | directive _ :: rest => simp [cons, eq_comm]
  | literal t :: rest =>
    simp only [cons, List.mem_cons, literal.injEq, forall_eq_or_imp, not_or, and_assoc]
    rw [ne_comm]

/-- A character before pieces comes before their text. -/
theorem flatMap_text_cons (c : Char) (pieces : List Piece) :
    (cons c pieces).flatMap text = c :: pieces.flatMap text := by
  match pieces with
  | [] => rfl
  | directive _ :: rest => rfl
  | literal _ :: rest => rfl

/-- So it comes before their parts. -/
theorem map_part_cons (c : Char) (pieces : List Piece) :
    (cons c pieces).map part = TemplatePart.cons c (pieces.map part) := by
  match pieces with
  | [] => rfl
  | directive _ :: rest => rfl
  | literal _ :: rest => rfl

/-- **What a directive of a pattern asks for, a text can say.** -/
theorem isExpressible_of_mem {pattern : List Char} (h : directive d ∈ ofPattern pattern) :
    d.fieldSpec.IsExpressible := by
  fun_induction ofPattern pattern with
  | case1 => cases h
  | case2 => cases mem_cons_directive.mp h
  | case3 _ ih => exact ih (mem_cons_directive.mp h)
  | case4 c rest _ ih =>
    rcases List.mem_cons.mp h with same | h
    · cases same
      exact Directive.isExpressible_fieldSpec (c :: rest)
    · exact ih h
  | case5 _ _ _ ih => exact ih (mem_cons_directive.mp h)

/-- A template that is cut with a character before it has the character before its parts. -/
theorem cut_cons {c : Char} (plain : IsPlain (cons c pieces))
    (ih : IsPlain pieces → TemplatePart.cut (pieces.flatMap text) = pieces.map part) :
    TemplatePart.cut ((cons c pieces).flatMap text) = (cons c pieces).map part := by
  obtain ⟨ne, plain⟩ := isPlain_cons.mp plain
  rw [flatMap_text_cons, map_part_cons, TemplatePart.cut_cons ne, ih plain]

/-- **The parts of a template are the pieces of its pattern**, in their order. -/
theorem cut_template {pattern : List Char} (plain : IsPlain (ofPattern pattern)) :
    TemplatePart.cut (template pattern) = (ofPattern pattern).map part := by
  unfold template
  fun_induction ofPattern pattern with
  | case1 => exact TemplatePart.cut_nil
  | case2 => exact cut_cons plain fun _ => TemplatePart.cut_nil
  | case3 _ ih => exact cut_cons plain ih
  | case4 c rest _ ih =>
    have plain' : IsPlain (ofPattern (Directive.scan (c :: rest)).2) := fun t ht =>
      plain t (List.mem_cons_of_mem _ ht)
    -- the next closing brace is the one behind the specification, as that holds none
    have inside : ∀ b ∈ (Directive.scan (c :: rest)).1.fieldSpec.text, b ≠ '\x7d' := fun b hb =>
      FieldSpec.ne_brace_of_mem_text rfl hb
    rw [List.flatMap_cons, List.map_cons, ← ih plain', part, ← TemplatePart.cut_group inside]
    simp [text]
  | case5 _ _ _ ih => exact cut_cons plain ih

/-- **A template keeps the slots of its pattern**: cut at its groups, it has the same texts, and its groups are
    read as what the directives ask for.  So a pattern is filled in as its template says, slot by slot. -/
theorem template_keeps_slots {pattern : List Char} (plain : IsPlain (ofPattern pattern)) :
    (TemplatePart.cut (template pattern)).map TemplatePart.slot = (ofPattern pattern).map slot ∧
      ∀ args result, format (.ofChars pattern) args = .ok result ↔
        let slots := (TemplatePart.cut (template pattern)).map TemplatePart.slot
        Served (Slot.specs slots) args ∧
          result = .ofChars (Slot.assemble slots (renderings (Slot.specs slots) args)) := by
  have kept : (TemplatePart.cut (template pattern)).map TemplatePart.slot = (ofPattern pattern).map slot := by
    rw [cut_template plain, List.map_map]
    refine List.map_congr_left fun piece mem => ?_
    -- a text is its own slot, and a directive that of what it asks for
    cases piece with
    | literal t => rfl
    | directive d =>
      show Slot.field (FieldSpec.parse d.fieldSpec.text) = Slot.field d.fieldSpec
      rw [FieldSpec.parse_text (isExpressible_of_mem mem)]
  refine ⟨kept, fun args result => ?_⟩
  rw [kept, format_eq_ok_iff, Text.codePoints_ofChars]
  rfl

/-- A pattern with a precision of zero for an integer, a conversion that is none behind too many digits, and no
    conversion at the end. -/
theorem template_keeps_slots_of_unknown :
    IsPlain (ofPattern "%%a\x7d%-+08.0u%099999999999999999999q%5".toList) ∧
      (TemplatePart.cut (template "%%a\x7d%-+08.0u%099999999999999999999q%5".toList)).map TemplatePart.slot =
        [.text ['%', 'a', '\x7d'],
          .field { align := some .left, sign := some .plus, zeroPad := true, width := some 0,
                   presentation := some .decimal },
          .field { width := some 0xFFFFFFFFFFFFFFFF },
          .field { width := some 5 }] := by
  -- a text, a width and a precision, a count that is cut off, and a conversion that is missing
  have pieces : ofPattern "%%a\x7d%-+08.0u%099999999999999999999q%5".toList =
      [literal ['%', 'a', '\x7d'],
        directive ⟨{ left := true, plus := true, zero := true }, some 8, some 0, .unsigned⟩,
        directive ⟨{ zero := true }, some 0xFFFFFFFFFFFFFFFF, none, .unknown 'q'⟩,
        directive ⟨{ }, some 5, none, .missing⟩] := by
    decide +kernel
  have plain : IsPlain (ofPattern "%%a\x7d%-+08.0u%099999999999999999999q%5".toList) := by
    rw [pieces]
    intro t ht
    simp only [List.mem_cons, literal.injEq, reduceCtorEq, List.not_mem_nil, or_false] at ht
    rw [ht]
    decide
  have kept := (template_keeps_slots plain).1
  refine ⟨plain, ?_⟩
  rw [kept, pieces]
  rfl

end Piece

end SystemUnit
