import SystemUnit.Proofs.File.Output

namespace SystemUnit

/-!
# Texts one behind the other

The characters of two texts that are joined are those of both, one behind the other, unless the seam joins the two
halves of a supplementary character: apart, both halves are lost.  Bytes in a file show the same.

* `Text.meetsInPair` — the two halves of a character meet where a text ends and another one begins;
* `Text.charsOfUnits_append` — the characters of units one behind the other;
* `Text.charsOfUnits_append_of_pair` — the character that only the joined units have;
* `Text.toUtf8_append_eq_iff` — the bytes of texts one behind the other;
* `TextFile.Written.writes_close` — what is in a file that is written to and closed;
* `TextFile.writes_joined_iff` — the bytes of texts that are written to a file.
-/

namespace Text

variable {c d : CodeUnit} {front back : List CodeUnit} {s t : Text}

/-- Whether a text ends in the first half of a supplementary character, and another one begins with a second half. -/
def meetsInPair (s t : Text) : Bool := s.units.getLast?.any CodeUnit.isHighSurrogate && lowAt t.units 0

/-! ### The seam -/

/-- The seam stays apart without the units before the last one. -/
theorem meetsInPair_of_cons (apart : meetsInPair ⟨c :: front⟩ ⟨back⟩ = false) : meetsInPair ⟨front⟩ ⟨back⟩ = false := by
  unfold meetsInPair at apart ⊢
  cases last : front.getLast? with
  -- where no unit is left, nothing meets
  | none => rfl
  | some d => simpa [List.getLast?_cons, last] using apart

/-- What stands behind units does not change the first of them. -/
theorem lowAt_append (ne : front ≠ []) (back : List CodeUnit) : lowAt (front ++ back) 0 = lowAt front 0 := by
  cases front with
  | nil => exact absurd rfl ne
  | cons c front => rfl

/-- **Units one behind the other have the characters of both**, unless the seam joins two halves. -/
theorem charsOfUnits_append (apart : meetsInPair ⟨front⟩ ⟨back⟩ = false) :
    charsOfUnits (front ++ back) = charsOfUnits front ++ charsOfUnits back := by
  induction front using units_induction with
  | nil => rfl
  | pair c d front high low ih =>
    rw [charsOfUnits_pair high low, List.cons_append, List.cons_append, charsOfUnits_pair high low,
      ih (meetsInPair_of_cons (meetsInPair_of_cons apart)), List.cons_append]
  | single c front single ih =>
    -- the unit behind `c` is the first one of the back if `c` is the last one of the front
    have single' : (c.isHighSurrogate && lowAt (front ++ back) 0) = false := by
      by_cases empty : front = []
      · simpa [meetsInPair, empty] using apart
      · rwa [lowAt_append empty]
    rw [charsOfUnits_single single, List.cons_append, charsOfUnits_single single', ih (meetsInPair_of_cons apart),
      List.append_assoc]

/-- **Two halves that meet are a character**, and apart both are lost. -/
theorem charsOfUnits_append_of_pair (high : c.isHighSurrogate = true) (low : d.isLowSurrogate = true)
    (front back : List CodeUnit) :
    charsOfUnits (front ++ [c] ++ d :: back) = charsOfUnits front ++ CodeUnit.pair c d :: charsOfUnits back ∧
      charsOfUnits (front ++ [c]) = charsOfUnits front ∧ charsOfUnits (d :: back) = charsOfUnits back := by
  have not_low := isLowSurrogate_of_high high
  have not_high := isHighSurrogate_of_low low
  -- neither seam beside the first half joins anything
  have before (rest : List CodeUnit) :
      charsOfUnits (front ++ c :: rest) = charsOfUnits front ++ charsOfUnits (c :: rest) :=
    charsOfUnits_append (by simp [meetsInPair, not_low])
  refine ⟨?_, ?_, ?_⟩
  · rw [List.append_assoc, List.singleton_append, before, charsOfUnits_pair high low]
  · rw [before]
    simp [charsOfUnits, high]
  · rw [charsOfUnits_single (by simp [not_high])]
    simp [low]

/-- Two texts that meet in a pair, told by the halves that meet. -/
theorem exists_units_of_meetsInPair (meets : s.meetsInPair t = true) :
    ∃ front c d back, s = ⟨front ++ [c]⟩ ∧ t = ⟨d :: back⟩ ∧ c.isHighSurrogate = true ∧ d.isLowSurrogate = true := by
  obtain ⟨units⟩ := s
  obtain ⟨others⟩ := t
  obtain ⟨ends, begins⟩ := Bool.and_eq_true_iff.mp meets
  obtain ⟨c, last, high⟩ := (Option.any_eq_true _ _).mp ends
  obtain ⟨d, first, low⟩ := (Option.any_eq_true _ _).mp begins
  obtain ⟨front, rfl⟩ := List.getLast?_eq_some_iff.mp last
  cases others with
  | nil => cases first
  | cons e back =>
    cases first
    exact ⟨front, c, d, back, rfl, rfl, high, low⟩

/-- **The bytes of two texts that are joined are those of both, one behind the other, exactly if no two halves
    meet.** -/
theorem toUtf8_append_eq_iff (s t : Text) : (s ++ t).toUtf8 = s.toUtf8 ++ t.toUtf8 ↔ ¬ s.meetsInPair t = true := by
  unfold toUtf8 codePoints
  rw [units_append]
  constructor
  · intro same meets
    obtain ⟨front, c, d, back, rfl, rfl, high, low⟩ := exists_units_of_meetsInPair meets
    obtain ⟨joined, left, right⟩ := charsOfUnits_append_of_pair high low front back
    -- the character that is lost has at least one byte
    have bytes : 0 < (String.utf8EncodeChar (CodeUnit.pair c d)).length :=
      List.length_pos_iff.mpr String.utf8EncodeChar_ne_nil
    rw [joined, left, right, Utf8.encode_append, Utf8.encode_cons] at same
    have lengths := congrArg List.length same
    simp only [List.length_append] at lengths
    omega
  · intro apart
    rw [charsOfUnits_append (Bool.eq_false_iff.mpr apart), Utf8.encode_append]

end Text

namespace TextFile

open FileM

variable {name : Text} {mode : FileMode} {base : Volume} {id : NodeId} {bytes : List UInt8} {f : TextFile}
  {c : FileContext}

/-! ### Writing to a file -/

/-- A text is written as its characters. -/
theorem written_write (t : Text) : (Operation.write (.text t)).written = t.codePoints := by
  show (t.codePoints.map ([·])).flatten = t.codePoints
  exact List.flatMap_singleton' _

/-- A file that is written to and closed holds what was written to it before, and then this. -/
theorem Written.writes_close (h : Written name mode base id bytes (f, c)) (ops : List Operation)
    (writes : ∀ op ∈ ops, op.parts?.isSome = true) :
    let run := ops ++ [.close]
    trace (f, c) (run.map Operation.act) = List.replicate run.length (.done, .success) ∧
      (after (f, c) (run.map Operation.act)).2.volume.node? id =
        some (.file (bytes ++ Utf8.encode (ops.flatMap Operation.written))) := by
  obtain ⟨old, node⟩ : ∃ old, base.node? id = some (.file old) := by
    obtain ⟨-, -, w, -, rfl, holds⟩ := h
    exact holds.file
  obtain ⟨answers, written⟩ := h.writes writes
  have closed := written.close
  dsimp only
  rw [List.map_append, trace_append, after_append, answers, List.length_append, List.replicate_add]
  simp only [List.map_cons, List.map_nil, FileM.trace, FileM.after, closed]
  exact ⟨rfl, Volume.node?_set_self node _⟩

/-- **Two texts are written as one, exactly if no two halves meet.**  So it is with their bytes, and so with the file
    they are written to: if it is open for output and the host refuses nothing, then every operation succeeds, and the
    file holds behind what it held before the bytes of both texts, or those of the joined text. -/
theorem writes_joined_iff :
    (∀ s t : Text, (s ++ t).toUtf8 = s.toUtf8 ++ t.toUtf8 ↔ ¬ s.meetsInPair t = true) ∧
    ∀ (name : Text) (mode : FileMode) (base : Volume) (id : NodeId) (bytes : List UInt8) (f : TextFile)
      (c : FileContext), Written name mode base id bytes (f, c) → ∀ s t : Text,
      let apart := [Operation.write (.text s), .write (.text t), .close].map Operation.act
      let joined := [Operation.write (.text (s ++ t)), .close].map Operation.act
      trace (f, c) apart = List.replicate 3 (.done, .success) ∧
      trace (f, c) joined = List.replicate 2 (.done, .success) ∧
      (after (f, c) apart).2.volume.node? id = some (.file (bytes ++ (s.toUtf8 ++ t.toUtf8))) ∧
      (after (f, c) joined).2.volume.node? id = some (.file (bytes ++ (s ++ t).toUtf8)) ∧
      ((after (f, c) apart).2.volume.node? id = (after (f, c) joined).2.volume.node? id ↔
        ¬ s.meetsInPair t = true) := by
  refine ⟨Text.toUtf8_append_eq_iff, fun name mode base id bytes f c h s t => ?_⟩
  -- either way what is written comes behind what the file held
  obtain ⟨answers, file⟩ := h.writes_close [.write (.text s), .write (.text t)] (by simp [Operation.parts?])
  obtain ⟨answers', file'⟩ := h.writes_close [.write (.text (s ++ t))] (by simp [Operation.parts?])
  have apart : Utf8.encode ([Operation.write (.text s), .write (.text t)].flatMap Operation.written) =
      s.toUtf8 ++ t.toUtf8 := by
    simp [written_write, Utf8.encode_append, Text.toUtf8]
  have joined : Utf8.encode ([Operation.write (.text (s ++ t))].flatMap Operation.written) = (s ++ t).toUtf8 := by
    simp [written_write, Text.toUtf8]
  rw [apart] at file
  rw [joined] at file'
  refine ⟨answers, answers', file, file', (Eq.congr file file').trans ?_⟩
  -- what the file held before is the same in both
  rw [← Text.toUtf8_append_eq_iff, eq_comm]
  simp

/-- A high surrogate behind a byte that is held back, and a low one behind it, written one by one and at once. -/
theorem writes_joined_split :
    let s : Text := ⟨[0x61, 0xD83D]⟩
    let t : Text := ⟨[0xDE00]⟩
    let base : Volume := ⟨[.directory 0 false [(['a'], 1)], .file [0x78]], 0, none⟩
    let f : TextFile := ⟨some (.singleton 0x61), .output ⟨1, 0, true, #[0x79]⟩⟩
    let c : FileContext := { volume := base }
    let apart := [Operation.write (.text s), .write (.text t), .close].map Operation.act
    let joined := [Operation.write (.text (s ++ t)), .close].map Operation.act
    Written (.singleton 0x61) .readWrite base 1 [0x78, 0x79] (f, c) ∧ s.meetsInPair t = true ∧
      (after (f, c) apart).2.volume.node? 1 = some (.file [0x78, 0x79, 0x61]) ∧
      (after (f, c) joined).2.volume.node? 1 = some (.file [0x78, 0x79, 0x61, 0xF0, 0x9F, 0x98, 0x80]) := by
  intro s t base f c apart joined
  have written : Written (.singleton 0x61) .readWrite base 1 [0x78, 0x79] (f, c) :=
    ⟨rfl, rfl, _, rfl, rfl, rfl, ⟨[0x78], rfl⟩, [0x78], rfl, .inl rfl, rfl⟩
  obtain ⟨-, -, file, file', -⟩ := writes_joined_iff.2 _ _ _ _ _ f c written s t
  refine ⟨written, by decide, ?_, ?_⟩
  · rw [file]
    decide
  · rw [file']
    decide

end TextFile

end SystemUnit
