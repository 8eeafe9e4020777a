import SystemUnit.Proofs.Record.Codec

namespace SystemUnit

/-!
# Bytes and the record that they hold

As many bytes as a record has hold a record.  These bytes are written back, but for a truth value: any byte other than
zero is true, and true is written as one.  So the bytes of a record without truth values are told by the record.

* `RecordType.isBooleanAt`, `RecordType.canonical` — the places of truth values, and bytes with ones at them;
* `RecordType.exists_decode?` — the record that some bytes hold, and the bytes that it is written as;
* `RecordType.decodeAll_encodeAll` — a list of records comes back from its bytes, cut at the size of a record;
* `RecordType.exact_codec` — records as bytes and back, bytes as records and back, and lists of records.
-/

namespace RecordType

/-! ### Truth values in a record -/

/-- Whether a type of records has truth values. -/
def hasBoolean : RecordType → Bool
  | scalar t => t = .boolean
  | array element _ => element.hasBoolean

/-- Whether a byte of a record is that of a truth value. -/
def isBooleanAt : RecordType → Nat → Bool
  | scalar t, _ => t = .boolean
  | array element _, i => element.isBooleanAt (i % element.size)

/-- A byte at a place of a record, as it is written: true is written as one. -/
def canonicalAt (r : RecordType) (i : Nat) (b : UInt8) : UInt8 :=
  if r.isBooleanAt i ∧ b ≠ 0 then 1 else b

/-- The bytes of a record as they are written. -/
def canonical (r : RecordType) (bytes : List UInt8) : List UInt8 := bytes.mapIdx r.canonicalAt

/-- A type without truth values has none at any place. -/
theorem isBooleanAt_of_hasBoolean {r : RecordType} (none : r.hasBoolean = false) (i : Nat) :
    r.isBooleanAt i = false := by
  induction r generalizing i with
  | scalar t => exact none
  | array element count ih => exact ih none _

/-- Without truth values, bytes are written as they are. -/
theorem canonical_of_hasBoolean {r : RecordType} (none : r.hasBoolean = false) (bytes : List UInt8) :
    r.canonical bytes = bytes := by
  rw [canonical, List.mapIdx_eq_iff]
  intro i
  have same : r.canonicalAt i = id := by
    funext b
    rw [canonicalAt, isBooleanAt_of_hasBoolean none, if_neg fun h => Bool.false_ne_true h.1, id]
  rw [same, Option.map_id_apply]

/-! ### The bytes of a record that was read -/

/-- A scalar is written as its bytes were, but for a truth value. -/
theorem encode_ofPattern (t : ScalarType) {bytes : List UInt8} (length : bytes.length = t.size) :
    (scalar t).encode (t.ofPattern (Bytes.toNat bytes)) = (scalar t).canonical bytes := by
  have lt := Bytes.toNat_lt bytes
  rw [length] at lt
  rw [encode, t.pattern_ofPattern lt]
  -- all patterns of a scalar are written again, and only truth values have patterns that are not
  by_cases boolean : t = .boolean
  · subst boolean
    obtain ⟨b, rfl⟩ := List.length_eq_one_iff.mp length
    rw [canonical, List.mapIdx_singleton]
    by_cases zero : b = 0
    · subst zero
      rfl
    · have pos : Bytes.toNat [b] ≠ 0 := fun h => zero (UInt8.toNat_inj.mp h)
      have written : (scalar .boolean).canonicalAt 0 b = 1 := if_pos ⟨rfl, zero⟩
      rw [if_pos ⟨rfl, pos⟩, written]
      rfl
  · have none : (scalar t).hasBoolean = false := decide_eq_false boolean
    rw [if_neg fun h => boolean h.1, canonical_of_hasBoolean none, ← length, Bytes.ofNat_toNat]

/-- Items are read from their parts of the bytes, and written one after the other. -/
theorem exists_decodeItems? {α : Type} {decode? : List UInt8 → Option α} {encode : α → List UInt8} {size : Nat}
    {g : Nat → UInt8 → UInt8}
    (one : ∀ bytes, bytes.length = size → ∃ a, decode? bytes = some a ∧ encode a = bytes.mapIdx g) (count : Nat)
    {bytes : List UInt8} (length : bytes.length = size * count) :
    ∃ a, decodeItems? decode? size count bytes = some a ∧
      a.items.flatMap encode = bytes.mapIdx fun i => g (i % size) := by
  induction count generalizing bytes with
  | zero =>
    rw [Nat.mul_zero, List.length_eq_zero_iff] at length
    subst length
    exact ⟨.nil, rfl, rfl⟩
  | succ count ih =>
    rw [Nat.mul_succ] at length
    -- the first item takes its bytes, and the others have the rest
    have length_first : (bytes.take size).length = size := by
      rw [List.length_take]
      omega
    have length_rest : (bytes.drop size).length = size * count := by
      rw [List.length_drop]
      omega
    obtain ⟨first, decoded, encoded⟩ := one _ length_first
    obtain ⟨rest, decoded_rest, encoded_rest⟩ := ih length_rest
    refine ⟨.cons first rest, by rw [decodeItems?, decoded, decoded_rest]; rfl, ?_⟩
    -- a place in the first item is itself modulo the size, and behind it places are moved by the size
    have inside : (bytes.take size).mapIdx (fun i => g (i % size)) = (bytes.take size).mapIdx g := by
      rw [List.mapIdx_eq_mapIdx_iff]
      intro i lt
      rw [Nat.mod_eq_of_lt (by omega)]
    calc (first :: rest.items).flatMap encode
        = (bytes.take size).mapIdx (fun i => g (i % size)) ++
            (bytes.drop size).mapIdx (fun i => g ((i + (bytes.take size).length) % size)) := by
          rw [List.flatMap_cons, encoded, encoded_rest, inside]
          simp only [length_first, Nat.add_mod_right]
      _ = bytes.mapIdx fun i => g (i % size) := by rw [← List.mapIdx_append, List.take_append_drop]

/-- **As many bytes as a record has hold one, and it is written as their canonical bytes.** -/
theorem exists_decode? (r : RecordType) {bytes : List UInt8} (length : bytes.length = r.size) :
    ∃ v, r.decode? bytes = some v ∧ r.encode v = r.canonical bytes := by
  induction r generalizing bytes with
  | scalar t =>
    have enough : t.size ≤ bytes.length := Nat.le_of_eq length.symm
    have all : bytes.take t.size = bytes := List.take_of_length_le (Nat.le_of_eq length)
    refine ⟨t.ofPattern (Bytes.toNat bytes), ?_, encode_ofPattern t length⟩
    rw [decode?, if_pos enough, all]
  | array element count ih => exact exists_decodeItems? (fun bytes length => ih length) count length

/-! ### Lists of records -/

/-- A list of records comes back from its bytes. -/
theorem decodeAll_encodeAll (r : RecordType) (x : List r.Value) : r.decodeAll x.length (r.encodeAll x) = x := by
  induction x with
  | nil => rfl
  | cons v x ih =>
    have back := r.decode?_encode_append v []
    rw [List.append_nil] at back
    rw [List.length_cons, decodeAll, encodeAll_cons, List.take_left' (r.length_encode v), back,
      List.drop_left' (r.length_encode v)]
    exact congrArg (v :: ·) ih

/-- **Records are an exact code of fixed size.**  A record is written as bytes of the size of its type, and comes back
    from them, whatever follows.  Bytes of that size hold a record, and it is written as the same bytes, but for truth
    values, which are written as one where they are not zero; without truth values all bytes are the same.  A list of
    records comes back from as many parts of its bytes as there are of that size. -/
theorem exact_codec (r : RecordType) :
    (∀ v, (r.encode v).length = r.size ∧ ∀ rest, r.decode? (r.encode v ++ rest) = some v) ∧
    (∀ bytes : List UInt8, bytes.length = r.size →
      ∃ v, r.decode? bytes = some v ∧
        r.encode v = bytes.mapIdx (fun i b => if r.isBooleanAt i ∧ b ≠ 0 then 1 else b) ∧
        (r.hasBoolean = false → r.encode v = bytes)) ∧
    (0 < r.size → ∀ x, r.decodeAll ((r.encodeAll x).length / r.size) (r.encodeAll x) = x) := by
  refine ⟨fun v => ⟨r.length_encode v, r.decode?_encode_append v⟩, fun bytes length => ?_, fun pos x => ?_⟩
  · obtain ⟨v, decoded, encoded⟩ := r.exists_decode? length
    refine ⟨v, decoded, encoded, fun none => ?_⟩
    rw [encoded, canonical_of_hasBoolean none]
  · rw [length_encodeAll, Nat.mul_div_cancel _ pos, decodeAll_encodeAll]

/-- Truth values in an array of arrays, where only ones and zeros stay; and a not-a-number with a payload, which stays. -/
theorem exact_codec_payload :
    let truths : RecordType := .array (.array (.scalar .boolean) 3) 2
    let reals : RecordType := .array (.scalar (.floating .single)) 1
    let bytes : List UInt8 := [0, 2, 1, 255, 0, 7]
    let payload : List UInt8 := [0x01, 0x00, 0xA0, 0x7F]
    bytes.length = truths.size ∧ payload.length = reals.size ∧ reals.hasBoolean = false ∧ 0 < reals.size ∧
      (∃ v, truths.decode? bytes = some v ∧ truths.encode v = [0, 1, 1, 1, 0, 1]) ∧
      ∃ v, reals.decode? payload = some v ∧ reals.encode v = payload ∧ reals.decodeAll 2 (payload ++ payload) = [v, v] := by
  intro truths reals bytes payload
  obtain ⟨v, decoded, encoded, -⟩ := (exact_codec truths).2.1 bytes rfl
  obtain ⟨w, decoded', -, same⟩ := (exact_codec reals).2.1 payload rfl
  have written : reals.encode w = payload := same rfl
  have two := (exact_codec reals).2.2 (by decide) [w, w]
  have count : (payload ++ payload).length / reals.size = 2 := by decide
  rw [encodeAll_cons, encodeAll_cons, encodeAll_nil, written, List.append_nil, count] at two
  exact ⟨rfl, rfl, rfl, by decide, ⟨v, decoded, encoded⟩, w, decoded', written, two⟩

end RecordType

end SystemUnit
