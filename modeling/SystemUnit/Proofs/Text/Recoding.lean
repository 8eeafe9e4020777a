import SystemUnit.Proofs.Text.Surrogates
import SystemUnit.Proofs.Utf8.Chunks

namespace SystemUnit

namespace Text

/-!
# Texts as UTF-8 and back

Units may be no characters, and bytes may be none either; what is neither is left out on the way.

* `codePoints_ofChars`, `ofChars_codePoints` — characters and units, one way and the other;
* `ofChars_inj` — different characters are different texts;
* `ofUtf8_toUtf8` — a text as bytes and back;
* `toUtf8_ofUtf8` — bytes as a text and back;
* `ofUtf8_toUtf8_loses_unpaired`, `toUtf8_ofUtf8_loses_malformed` — what is lost on either way, and that nothing
  more is lost later.
-/

variable {s : Text}

/-- Characters that become a text come back. -/
theorem codePoints_ofChars (cs : List Char) : (ofChars cs).codePoints = cs :=
  charsOfUnits_flatMap_ofChar cs

/-- Different characters are different texts. -/
theorem ofChars_inj {cs ds : List Char} : ofChars cs = ofChars ds ↔ cs = ds := by
  refine ⟨fun same => ?_, congrArg ofChars⟩
  rw [← codePoints_ofChars cs, same, codePoints_ofChars]

/-- A text is empty if it is made of no characters. -/
theorem isEmpty_ofChars (cs : List Char) : (ofChars cs).isEmpty = cs.isEmpty := by
  have empty : ofChars cs = ofChars [] ↔ cs = [] := ofChars_inj
  rw [Text.ext_iff] at empty
  rw [Bool.eq_iff_iff, isEmpty, List.isEmpty_iff, List.isEmpty_iff, ← empty]
  rfl

/-- A text that becomes characters comes back without its unpaired surrogates. -/
theorem ofChars_codePoints (s : Text) : ofChars s.codePoints = ⟨withoutUnpaired s.units⟩ :=
  Text.ext (ofChars_charsOfUnits s.units)

/-- Whether a text survives as characters is told by its units. -/
theorem isPaired_iff : s.isPaired = true ↔ ∀ i, isUnpaired s.units i = false := by
  rw [isPaired, beq_iff_eq, ofChars_codePoints, Text.ext_iff, withoutUnpaired_eq_self_iff]

/-- Characters leave no surrogate unpaired. -/
theorem isUnpaired_ofChars (cs : List Char) (i : Nat) : isUnpaired (ofChars cs).units i = false := by
  have same := ofChars_codePoints (ofChars cs)
  rw [codePoints_ofChars] at same
  exact withoutUnpaired_eq_self_iff.mp (congrArg Text.units same).symm i

/-- A text as bytes and back is the text as characters and back. -/
theorem ofUtf8_toUtf8 (s : Text) : ofUtf8 s.toUtf8 = ofChars s.codePoints := by
  rw [ofUtf8, toUtf8, Utf8.decode_encode]

/-- Bytes as a text and back are the bytes as characters and back. -/
theorem toUtf8_ofUtf8 (bytes : List UInt8) : (ofUtf8 bytes).toUtf8 = Utf8.encode (Utf8.decode bytes) := by
  rw [toUtf8, ofUtf8, codePoints_ofChars]

/-- What comes from bytes survives as bytes. -/
theorem ofUtf8_toUtf8_ofUtf8 (bytes : List UInt8) : ofUtf8 (ofUtf8 bytes).toUtf8 = ofUtf8 bytes := by
  rw [toUtf8_ofUtf8, ofUtf8, Utf8.decode_encode, ofUtf8]

/-- **A text as UTF-8 and back** loses just its unpaired surrogates, and so nothing exactly if it has none, and
    nothing the second time.  The bytes are valid, and those of the text's characters as a string. -/
theorem ofUtf8_toUtf8_loses_unpaired (s : Text) :
    ofUtf8 s.toUtf8 = ⟨withoutUnpaired s.units⟩ ∧
      s.toUtf8.toByteArray.IsValidUTF8 ∧
      s.toUtf8.toByteArray = (String.ofList s.codePoints).toByteArray ∧
      (ofUtf8 s.toUtf8 = s ↔ ∀ i, isUnpaired s.units i = false) ∧
      ofUtf8 (ofUtf8 s.toUtf8).toUtf8 = ofUtf8 s.toUtf8 := by
  -- encoding and decoding is a detour, and all that counts are the characters
  have recoded : ofUtf8 s.toUtf8 = ⟨withoutUnpaired s.units⟩ := by
    rw [ofUtf8_toUtf8, ofChars_codePoints]
  refine ⟨recoded, ?_, ?_, ?_, ofUtf8_toUtf8_ofUtf8 _⟩
  · exact Utf8.isValidUTF8_iff.mpr ⟨s.codePoints, rfl⟩
  · rfl
  · rw [recoded, Text.ext_iff, withoutUnpaired_eq_self_iff]

/-- **Bytes as a text and back** lose just their ill-formed pieces: the bytes split into runs of characters and
    such pieces in one way only, and the runs are left.  So valid bytes lose nothing, and they alone; the text
    has no unpaired surrogate, and loses nothing later. -/
theorem toUtf8_ofUtf8_loses_malformed (bytes : List UInt8) :
    (∀ i, isUnpaired (ofUtf8 bytes).units i = false) ∧
      (∃ chunks, Utf8.Chunks bytes chunks ∧ (∀ others, Utf8.Chunks bytes others → others = chunks) ∧
        (ofUtf8 bytes).toUtf8 = chunks.flatMap fun chunk => Utf8.encode chunk.valid) ∧
      ((ofUtf8 bytes).toUtf8 = bytes ↔ bytes.toByteArray.IsValidUTF8) ∧
      ofUtf8 (ofUtf8 bytes).toUtf8 = ofUtf8 bytes := by
  refine ⟨isUnpaired_ofChars _, ?_, ?_, ofUtf8_toUtf8_ofUtf8 bytes⟩
  · -- the valid runs are all that is decoded, and they are encoded again as they were
    obtain ⟨chunks, h, decoded⟩ := Utf8.exists_chunks bytes
    refine ⟨chunks, h, fun others h' => h'.unique h, ?_⟩
    rw [toUtf8_ofUtf8, decoded]
    exact List.flatMap_assoc
  · rw [toUtf8_ofUtf8, Utf8.encode_decode_eq_iff, Utf8.isValidUTF8_iff]

end Text

end SystemUnit
