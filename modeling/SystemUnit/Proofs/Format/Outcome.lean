import SystemUnit.Format.Basic
import Mathlib.Data.List.Basic

namespace SystemUnit

/-!
# Outcomes of formatting

A pattern has slots: texts, and fields that arguments are set in.  Whether it can be filled in depends on the
fields and arguments alone, one by one from the left, and the first that do not fit decide the fault.

* `Slot`, `Slot.ofPattern` — the slots of a pattern;
* `FieldSpec.Accepts` — the arguments that fit a field, by a table of forms and types;
* `FieldSpec.accepts_iff` — they are those that can be set in it;
* `Served`, `FailsFirst` — all fields have a fitting argument, or a first one has not;
* `fillIn_cases`, `format_cases` — what filling in and formatting give in either case;
* `fillIn_take` — arguments that are left over do not count;
* `format_outcome` — what formatting gives.
-/

/-! ### Slots -/

/-- A part of a pattern that is filled in: a text, or a field. -/
inductive Slot where
  | text (t : List Char)
  | field (spec : FieldSpec)
  deriving DecidableEq

/-- A piece as a slot. -/
def Piece.slot : Piece → Slot
  | literal t => .text t
  | directive d => .field d.fieldSpec

namespace Slot

/-- The slots of a pattern. -/
def ofPattern (pattern : List Char) : List Slot := (Piece.ofPattern pattern).map Piece.slot

/-- The specifications of the fields, from the left. -/
def specs : List Slot → List FieldSpec
  | [] => []
  | text _ :: slots => specs slots
  | field spec :: slots => spec :: specs slots

/-- The texts, with the given ones in the fields. -/
def assemble : List Slot → List (List Char) → List Char
  | [], _ => []
  | text t :: slots, fields => t ++ assemble slots fields
  | field _ :: slots, [] => assemble slots []
  | field _ :: slots, f :: fields => f ++ assemble slots fields

end Slot

/-! ### Arguments and forms -/

namespace Argument

/-- Whether an argument is an integer, a truth value or a code unit. -/
def isOrdinal : Argument → Bool
  | scalar ⟨.whole _, _⟩ | scalar ⟨.boolean, _⟩ | scalar ⟨.char, _⟩ => true
  | _ => false

def isReal : Argument → Bool
  | scalar ⟨.floating _, _⟩ => true
  | _ => false

def isPointer : Argument → Bool
  | scalar ⟨.pointer, _⟩ => true
  | _ => false

/-- What stands in a field for an argument; nothing if it does not suit the form. -/
def field (spec : FieldSpec) (arg : Argument) : List Char := (arg.render? spec).getD []

end Argument

/-- The arguments that suit a form. -/
def Presentation.suits : Presentation → Argument → Bool
  | decimal | hex | hexUpper => Argument.isOrdinal
  | fixed | exponent | exponentUpper | general | generalUpper => Argument.isReal
  | pointer => Argument.isPointer

/-- The arguments that fit a field: its counts are within the limits, and its form suits, if it has one. -/
structure FieldSpec.Accepts (spec : FieldSpec) (arg : Argument) : Prop where
  width_le : ∀ n ∈ spec.width, n.toNat ≤ 32767
  precision_le : ∀ n ∈ spec.precision, n.toNat ≤ 32767
  suits : ∀ form ∈ spec.presentation, form.suits arg = true

variable {spec : FieldSpec} {specs : List FieldSpec} {arg : Argument} {args : List Argument} {i : Nat}

/-- A width and a precision have a limit each, if they are given. -/
theorem FieldSpec.isWithinLimits_iff :
    spec.isWithinLimits = true ↔
      (∀ n ∈ spec.width, n.toNat ≤ 32767) ∧ ∀ n ∈ spec.precision, n.toNat ≤ 32767 := by
  unfold isWithinLimits greatestField
  rw [Bool.and_eq_true]
  cases spec.width <;> cases spec.precision <;> simp

/-- An argument can be set in a field exactly if the form suits it. -/
theorem Argument.isSome_render? (spec : FieldSpec) (arg : Argument) :
    (arg.render? spec).isSome = true ↔ ∀ form ∈ spec.presentation, form.suits arg = true := by
  cases arg with
  | text t => cases form : spec.presentation with
    | none => simp [render?, form]
    | some p => cases p <;> simp [render?, form, Presentation.suits, isOrdinal, isReal, isPointer]
  | scalar s =>
    obtain ⟨type, value⟩ := s
    -- one case for each entry of the table of types and forms
    cases form : spec.presentation with
    | none => cases type <;> simp [render?, form]
    | some p =>
      cases type <;> cases p <;>
        simp [render?, form, Presentation.suits, isOrdinal, isReal, isPointer, Presentation.isInteger,
          Presentation.isFloating]

/-- **The arguments that fit a field are those that are set in it.** -/
theorem FieldSpec.accepts_iff :
    spec.Accepts arg ↔ spec.isWithinLimits = true ∧ arg.render? spec = some (arg.field spec) := by
  have set : (arg.render? spec).isSome = true ↔ arg.render? spec = some (arg.field spec) := by
    unfold Argument.field
    cases arg.render? spec <;> simp
  rw [← set, Argument.isSome_render?, isWithinLimits_iff]
  exact ⟨fun h => ⟨⟨h.width_le, h.precision_le⟩, h.suits⟩, fun h => ⟨h.1.1, h.1.2, h.2⟩⟩

/-! ### Fields and arguments from the left -/

/-- Whether the field number `i` has an argument, and one that fits. -/
def ServedAt (specs : List FieldSpec) (args : List Argument) (i : Nat) : Prop :=
  ∃ spec arg, specs[i]? = some spec ∧ args[i]? = some arg ∧ spec.Accepts arg

/-- Whether there are arguments for all fields, and each fits its field. -/
structure Served (specs : List FieldSpec) (args : List Argument) : Prop where
  length_le : specs.length ≤ args.length
  accepts : ∀ (spec : FieldSpec) (arg : Argument) (i : Nat), specs[i]? = some spec → args[i]? = some arg →
    spec.Accepts arg

/-- Whether the field number `i` is the first without a fitting argument. -/
structure FailsFirst (specs : List FieldSpec) (args : List Argument) (i : Nat) : Prop where
  lt_length : i < specs.length
  before : ∀ j < i, ServedAt specs args j
  fails : ¬ ServedAt specs args i

/-- What stands in the fields. -/
def renderings (specs : List FieldSpec) (args : List Argument) : List (List Char) :=
  List.zipWith (fun spec arg => arg.field spec) specs args

/-- The fault at a field: there is no argument for it, or one that does not fit. -/
def faultAt (pattern : List Char) (args : List Argument) (i : Nat) : Fault :=
  if i < args.length then .unfitArgument pattern else .missingArgument pattern

/-- The first field has a fitting argument if the first argument fits it. -/
@[simp] theorem servedAt_zero : ServedAt (spec :: specs) (arg :: args) 0 ↔ spec.Accepts arg := by
  simp [ServedAt]

/-- So with the others, one by one. -/
@[simp] theorem servedAt_succ : ServedAt (spec :: specs) (arg :: args) (i + 1) ↔ ServedAt specs args i := by
  simp [ServedAt]

theorem served_nil (args : List Argument) : Served [] args :=
  ⟨Nat.zero_le _, fun _ _ _ h => nomatch h⟩

/-- Fields are served if the first one is, and the others by the other arguments. -/
theorem Served.cons (accepts : spec.Accepts arg) (h : Served specs args) :
    Served (spec :: specs) (arg :: args) where
  length_le := Nat.succ_le_succ h.length_le
  accepts spec' arg' i at_spec at_arg := by
    cases i with
    | zero =>
      cases at_spec
      cases at_arg
      exact accepts
    | succ i => exact h.accepts spec' arg' i at_spec at_arg

/-- Where all are served, each is. -/
theorem Served.servedAt (h : Served specs args) (lt : i < specs.length) : ServedAt specs args i := by
  have at_spec := List.getElem?_eq_getElem lt
  have at_arg := List.getElem?_eq_getElem (Nat.lt_of_lt_of_le lt h.length_le)
  exact ⟨_, _, at_spec, at_arg, h.accepts _ _ i at_spec at_arg⟩

/-- Where a first field fails, not all of them are served. -/
theorem FailsFirst.not_served (h : FailsFirst specs args i) : ¬ Served specs args := fun served =>
  h.fails (served.servedAt h.lt_length)

/-- There is but one first field that fails. -/
theorem FailsFirst.unique {j : Nat} (h : FailsFirst specs args i) (h' : FailsFirst specs args j) : i = j := by
  rcases Nat.lt_trichotomy i j with lt | eq | gt
  · exact absurd (h'.before i lt) h.fails
  · exact eq
  · exact absurd (h.before j gt) h'.fails

/-- A field fails for want of an argument. -/
theorem failsFirst_missing : FailsFirst (spec :: specs) [] 0 where
  lt_length := Nat.succ_pos _
  before _ lt := absurd lt (Nat.not_lt_zero _)
  fails h := by simp [ServedAt] at h

/-- A field fails if its argument does not fit. -/
theorem failsFirst_unfit (h : ¬ spec.Accepts arg) : FailsFirst (spec :: specs) (arg :: args) 0 where
  lt_length := Nat.succ_pos _
  before _ lt := absurd lt (Nat.not_lt_zero _)
  fails := by rwa [servedAt_zero]

/-- Behind a field that is served the first one to fail is one further on. -/
theorem FailsFirst.cons (accepts : spec.Accepts arg) (h : FailsFirst specs args i) :
    FailsFirst (spec :: specs) (arg :: args) (i + 1) where
  lt_length := Nat.succ_lt_succ h.lt_length
  before j lt := by
    cases j with
    | zero => exact servedAt_zero.mpr accepts
    | succ j => exact servedAt_succ.mpr (h.before j (Nat.lt_of_succ_lt_succ lt))
  fails := by
    rw [servedAt_succ]
    exact h.fails

/-! ### Filling in -/

variable {pattern : List Char} {pieces : List Piece} {d : Directive}

/-- Text is put before what the other pieces give. -/
theorem fillIn_literal (t : List Char) :
    fillIn pattern (.literal t :: pieces) args = (fillIn pattern pieces args).map (t ++ ·) := by
  rw [fillIn]
  cases fillIn pattern pieces args <;> rfl

/-- So is an argument that fits its field. -/
theorem fillIn_accepted (accepts : d.fieldSpec.Accepts arg) :
    fillIn pattern (.directive d :: pieces) (arg :: args) =
      (fillIn pattern pieces args).map (arg.field d.fieldSpec ++ ·) := by
  obtain ⟨limits, set⟩ := FieldSpec.accepts_iff.mp accepts
  rw [fillIn]
  simp only [limits, set]
  cases fillIn pattern pieces args <;> rfl

/-- An argument that does not fit ends it with a fault, whatever comes after it. -/
theorem fillIn_refused (refuses : ¬ d.fieldSpec.Accepts arg) :
    fillIn pattern (.directive d :: pieces) (arg :: args) = .error (.unfitArgument pattern) := by
  rw [fillIn]
  cases limits : d.fieldSpec.isWithinLimits with
  | false => rfl
  | true =>
    cases set : arg.render? d.fieldSpec with
    | none => rfl
    | some field =>
      -- within the limits and set in its field, the argument would fit
      refine absurd (FieldSpec.accepts_iff.mpr ⟨limits, ?_⟩) refuses
      rw [Argument.field, set]
      rfl

/-- **All fields are served, and the pattern is filled in, or the first that is not decides the fault.** -/
theorem fillIn_cases (pattern : List Char) (pieces : List Piece) (args : List Argument) :
    (Served (Slot.specs (pieces.map Piece.slot)) args ∧
      fillIn pattern pieces args = .ok (Slot.assemble (pieces.map Piece.slot)
        (renderings (Slot.specs (pieces.map Piece.slot)) args))) ∨
      ∃ i, FailsFirst (Slot.specs (pieces.map Piece.slot)) args i ∧
        fillIn pattern pieces args = .error (faultAt pattern args i) := by
  -- over the pieces: a text leaves the arguments to what follows, and a field takes the first
  induction pieces generalizing args with
  | nil => exact .inl ⟨served_nil args, rfl⟩
  | cons piece pieces ih =>
    cases piece with
    | literal t =>
      rw [fillIn_literal]
      rcases ih args with ⟨served, filled⟩ | ⟨i, first, failed⟩
      · refine .inl ⟨served, ?_⟩
        rw [filled]
        rfl
      · refine .inr ⟨i, first, ?_⟩
        rw [failed]
        rfl
    | directive d =>
      cases args with
      | nil => exact .inr ⟨0, failsFirst_missing, rfl⟩
      | cons arg args =>
        by_cases accepts : d.fieldSpec.Accepts arg
        · rw [fillIn_accepted accepts]
          rcases ih args with ⟨served, filled⟩ | ⟨i, first, failed⟩
          · refine .inl ⟨served.cons accepts, ?_⟩
            rw [filled]
            rfl
          · -- behind this field, and among its own arguments, the failing one has the number before
            refine .inr ⟨i + 1, first.cons accepts, ?_⟩
            rw [failed]
            show Except.error (faultAt pattern args i) = _
            simp [faultAt]
        · exact .inr ⟨0, failsFirst_unfit accepts, fillIn_refused accepts⟩

/-- Arguments that are left over do not count. -/
theorem fillIn_take (pattern : List Char) (pieces : List Piece) (args : List Argument) :
    fillIn pattern pieces (args.take (Slot.specs (pieces.map Piece.slot)).length) =
      fillIn pattern pieces args := by
  induction pieces generalizing args with
  | nil => rfl
  | cons piece pieces ih =>
    cases piece with
    | literal t =>
      show fillIn pattern (.literal t :: pieces) (args.take (Slot.specs (pieces.map Piece.slot)).length) = _
      rw [fillIn_literal, fillIn_literal, ih]
    | directive d =>
      -- without an argument the fault is the same
      cases args with
      | nil => rfl
      | cons arg args =>
        show fillIn pattern (.directive d :: pieces)
          (arg :: args.take (Slot.specs (pieces.map Piece.slot)).length) = _
        -- behind an argument that does not fit nothing is looked at
        by_cases accepts : d.fieldSpec.Accepts arg
        · rw [fillIn_accepted accepts, fillIn_accepted accepts, ih]
        · rw [fillIn_refused accepts, fillIn_refused accepts]

/-! ### Formatting -/

/-- To format is to fill in the pieces of the pattern. -/
theorem format_eq (pattern : Text) (args : List Argument) :
    format pattern args =
      (fillIn pattern.codePoints (Piece.ofPattern pattern.codePoints) args).map Text.ofChars := by
  show (fillIn pattern.codePoints (Piece.ofPattern pattern.codePoints) args >>= fun chars =>
    pure (Text.ofChars chars)) = _
  cases fillIn pattern.codePoints (Piece.ofPattern pattern.codePoints) args <;> rfl

/-- All fields are served, and formatting gives the text of the slots, or the first that is not decides the
    fault. -/
theorem format_cases (pattern : Text) (args : List Argument) :
    (Served (Slot.specs (Slot.ofPattern pattern.codePoints)) args ∧
      format pattern args = .ok (.ofChars (Slot.assemble (Slot.ofPattern pattern.codePoints)
        (renderings (Slot.specs (Slot.ofPattern pattern.codePoints)) args)))) ∨
      ∃ i, FailsFirst (Slot.specs (Slot.ofPattern pattern.codePoints)) args i ∧
        format pattern args = .error (faultAt pattern.codePoints args i) := by
  rw [format_eq]
  -- either all fields are served, or one fails first
  rcases fillIn_cases pattern.codePoints (Piece.ofPattern pattern.codePoints) args with
    ⟨served, filled⟩ | ⟨i, first, failed⟩
  · rw [filled]
    exact .inl ⟨served, rfl⟩
  · rw [failed]
    exact .inr ⟨i, first, rfl⟩

/-- A pattern gives a text exactly if all of its fields are served, and that text. -/
theorem format_eq_ok_iff (pattern : Text) (args : List Argument) (result : Text) :
    format pattern args = .ok result ↔
      Served (Slot.specs (Slot.ofPattern pattern.codePoints)) args ∧
        result = .ofChars (Slot.assemble (Slot.ofPattern pattern.codePoints)
          (renderings (Slot.specs (Slot.ofPattern pattern.codePoints)) args)) := by
  rcases format_cases pattern args with ⟨served, given⟩ | ⟨i, first, failed⟩
  · rw [given, Except.ok.injEq]
    exact ⟨fun same => ⟨served, same.symm⟩, fun same => same.2.symm⟩
  · rw [failed]
    exact ⟨fun same => (nomatch same), fun same => absurd same.1 first.not_served⟩

/-- A pattern gives a fault exactly if some field is the first that is not served, and the fault at that. -/
theorem format_eq_error_iff (pattern : Text) (args : List Argument) (fault : Fault) :
    format pattern args = .error fault ↔
      ∃ i, FailsFirst (Slot.specs (Slot.ofPattern pattern.codePoints)) args i ∧
        fault = faultAt pattern.codePoints args i := by
  rcases format_cases pattern args with ⟨served, given⟩ | ⟨i, first, failed⟩
  · rw [given]
    exact ⟨fun same => (nomatch same), fun ⟨i, first, _⟩ => absurd served first.not_served⟩
  · rw [failed, Except.error.injEq]
    refine ⟨fun same => ⟨i, first, same.symm⟩, fun ⟨j, first', same⟩ => ?_⟩
    rw [same, first.unique first']

/-- **What formatting gives.**  It gives a text exactly if each field has an argument that fits it, and the text
    is that of the slots, with the arguments set in their fields; what arguments are left over does not count.
    Otherwise the first field without a fitting argument decides the fault. -/
theorem format_outcome (pattern : Text) (args : List Argument) :
    let slots := Slot.ofPattern pattern.codePoints
    let specs := Slot.specs slots
    (∀ result, format pattern args = .ok result ↔
        Served specs args ∧ result = .ofChars (Slot.assemble slots (renderings specs args))) ∧
      format pattern (args.take specs.length) = format pattern args ∧
      (∀ fault, format pattern args = .error fault ↔
        ∃ i, FailsFirst specs args i ∧ fault = faultAt pattern.codePoints args i) ∧
      ∀ i, (faultAt pattern.codePoints args i).kind.className = "EConvertError" ∧
        (faultAt pattern.codePoints args i).message = .ofChars
          (if i < args.length then
            "Format '".toList ++ pattern.codePoints ++ "' invalid or incompatible with argument".toList
          else "No argument for format '".toList ++ pattern.codePoints ++ "'".toList) := by
  intro slots specs
  refine ⟨format_eq_ok_iff pattern args, ?_, format_eq_error_iff pattern args, fun i => ?_⟩
  · rw [format_eq, format_eq]
    exact congrArg _ (fillIn_take _ _ args)
  · unfold faultAt
    -- the two faults have the same class, and differ in their message
    split <;> exact ⟨rfl, rfl⟩

end SystemUnit
