import SystemUnit.Proofs.Format.Outcome

namespace SystemUnit

/-!
# Fields that are too large

A directive asks for a width or a precision, and a field has no more than 32767 of either.  A width that a precision
of a decimal integer takes the place of is not asked for, nor is a precision of what is neither a decimal integer nor a
real.  A pattern that asks for more is refused whatever its arguments are, and no other one is.

* `Directive.Asks`, `Directive.IsOversized` — the counts that a directive asks for, and those that no field has;
* `Directive.asks_iff` — they are the counts of the specification;
* `Argument.sample`, `served_samples` — arguments that fit fields within the limits;
* `refuses_all_iff_oversized` — the patterns that are refused with all arguments.
-/

namespace Directive

/-- The counts that a directive asks for. -/
inductive Asks (d : Directive) : UInt64 → Prop where
  | width {n : UInt64} (written : d.width = some n) (counts : d.conversion.isDecimal = false ∨ d.precision = none) :
      Asks d n
  | precision {n : UInt64} (written : d.precision = some n)
      (counts : d.conversion.isDecimal = true ∨ d.conversion.isFloating = true) : Asks d n

/-- Whether a directive asks for more than a field has. -/
def IsOversized (d : Directive) : Prop := ∃ n, d.Asks n ∧ 32767 < n.toNat

variable {d : Directive} {n : UInt64}

/-- **The counts that a directive asks for are those of its specification.** -/
theorem asks_iff : d.Asks n ↔ n ∈ d.fieldSpec.width ∨ n ∈ d.fieldSpec.precision := by
  unfold fieldSpec
  constructor
  · rintro (⟨written, plain | none⟩ | ⟨written, decimal | floating⟩)
    · exact .inl (by simpa [plain] using written)
    · exact .inl (by simpa [none] using written)
    · exact .inl (by simp [decimal, written])
    · exact .inr (by simpa [floating] using written)
  · rintro (width | precision)
    · cases decimal : d.conversion.isDecimal with
      | false => exact .width (by simpa [decimal] using width) (.inl decimal)
      | true =>
        -- a precision takes the place of the width
        cases asked : d.precision with
        | none => exact .width (by simpa [decimal, asked] using width) (.inr asked)
        | some m => exact .precision (by simpa [decimal, asked] using width) (.inl decimal)
    · cases floating : d.conversion.isFloating with
      | false => simp [floating] at precision
      | true => exact .precision (by simpa [floating] using precision) (.inr floating)

/-- The specification is within the limits exactly if the directive does not ask for more. -/
theorem isWithinLimits_iff_not_isOversized : d.fieldSpec.isWithinLimits = true ↔ ¬ d.IsOversized := by
  simp only [FieldSpec.isWithinLimits_iff, IsOversized, asks_iff, not_exists, not_and, Nat.not_lt]
  exact ⟨fun h n => Or.rec (h.1 n) (h.2 n), fun h => ⟨fun n mem => h n (.inl mem), fun n mem => h n (.inr mem)⟩⟩

end Directive

/-! ### Arguments that fit -/

/-- An argument that suits a form. -/
def Argument.sample : Option Presentation → Argument
  | none => .text .empty
  | some .decimal | some .hex | some .hexUpper => .scalar (.whole (Whole.ofInt .integer 0))
  | some .pointer => .scalar (.pointer .nil)
  | some _ => .scalar (.floating (Floating.zero .double))

theorem Presentation.suits_sample (form : Presentation) : form.suits (.sample form) = true := by
  cases form <;> rfl

variable {specs : List FieldSpec} {pieces : List Piece} {spec : FieldSpec}

/-- Fields within the limits are served by such arguments. -/
theorem served_samples (limits : ∀ spec ∈ specs, spec.isWithinLimits = true) :
    Served specs (specs.map fun spec => .sample spec.presentation) where
  length_le := Nat.le_of_eq (List.length_map _).symm
  accepts spec arg i at_spec at_arg := by
    rw [List.getElem?_map, at_spec, Option.map_some, Option.some.injEq] at at_arg
    obtain ⟨width, precision⟩ := FieldSpec.isWithinLimits_iff.mp (limits spec (List.mem_of_getElem? at_spec))
    refine ⟨width, precision, fun form mem => ?_⟩
    rw [← at_arg, Option.mem_def.mp mem]
    exact form.suits_sample

/-- The fields of a pattern are those that its directives ask for. -/
theorem Slot.mem_specs :
    spec ∈ Slot.specs (pieces.map Piece.slot) ↔ ∃ d, .directive d ∈ pieces ∧ d.fieldSpec = spec := by
  induction pieces with
  | nil => simp [Slot.specs]
  | cons piece pieces ih => cases piece <;> simp [Slot.specs, Piece.slot, ih, eq_comm]

theorem className_faultAt (pattern : List Char) (args : List Argument) (i : Nat) :
    (faultAt pattern args i).kind.className = "EConvertError" := by
  unfold faultAt
  split <;> rfl

/-! ### Patterns that are refused -/

/-- **The patterns that are refused whatever their arguments are** are those in which some directive asks for more than
    a field has; the fault is one of conversion, also if a directive before it has no fitting argument. -/
theorem refuses_all_iff_oversized (pattern : Text) :
    (∀ args, ∃ fault, format pattern args = .error fault ∧ fault.kind.className = "EConvertError") ↔
      ∃ d, .directive d ∈ Piece.ofPattern pattern.codePoints ∧ d.IsOversized := by
  constructor
  · intro refuses
    by_contra none
    have limits : ∀ spec ∈ Slot.specs (Slot.ofPattern pattern.codePoints), spec.isWithinLimits = true := by
      intro spec mem
      obtain ⟨d, written, rfl⟩ := Slot.mem_specs.mp mem
      exact Directive.isWithinLimits_iff_not_isOversized.mpr fun oversized => none ⟨d, written, oversized⟩
    -- with arguments for all fields the pattern is filled in
    obtain ⟨fault, failed, -⟩ := refuses _
    rw [(format_eq_ok_iff pattern _ _).mpr ⟨served_samples limits, rfl⟩] at failed
    cases failed
  · rintro ⟨d, mem, oversized⟩ args
    rcases format_cases pattern args with ⟨served, -⟩ | ⟨i, -, failed⟩
    · -- the argument of this directive would have to fit
      obtain ⟨i, at_spec⟩ := List.mem_iff_getElem?.mp (Slot.mem_specs.mpr ⟨d, mem, rfl⟩)
      obtain ⟨lt, -⟩ := List.getElem?_eq_some_iff.mp at_spec
      obtain ⟨spec, arg, at_spec', -, accepts⟩ := served.servedAt lt
      cases at_spec.symm.trans at_spec'
      have limits := (FieldSpec.accepts_iff.mp accepts).1
      exact absurd oversized (Directive.isWithinLimits_iff_not_isOversized.mp limits)
    · exact ⟨_, failed, className_faultAt ..⟩

/-- **Counts that are written and not asked for are not looked at**: a precision of a text, and a width of an integer
    with a precision. -/
theorem accepts_oversized_unasked :
    32767 < (40000 : UInt64).toNat ∧
      (Piece.ofPattern (Text.ofString "%.40000s").codePoints = [.directive ⟨{ }, none, some 40000, .text⟩] ∧
        format (.ofString "%.40000s") [.text (.ofString "x")] = .ok (.ofString "x")) ∧
      Piece.ofPattern (Text.ofString "%40000.5d").codePoints = [.directive ⟨{ }, some 40000, some 5, .signed⟩] ∧
        format (.ofString "%40000.5d") [.scalar (.whole (Whole.ofInt .integer 1))] = .ok (.ofString "00001") := by
  decide +kernel

end SystemUnit
