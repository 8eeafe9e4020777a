namespace SystemUnit

/-!
# UTF-8

Characters as bytes, and bytes read as characters.  Bytes that encode no character fall into malformed
pieces, each the longest start of an encoding, or a single byte.  Main definitions:

* `Utf8.encode` — the bytes of a list of characters;
* `Utf8.pieces` — bytes as characters and malformed pieces;
* `Utf8.decode`, `Utf8.decodeMarked`, `Utf8.decode?` — malformed pieces left out, marked, or refused.
-/

namespace Utf8

/-- The bytes of a list of characters. -/
def encode (cs : List Char) : List UInt8 :=
  cs.flatMap String.utf8EncodeChar

/-- What may follow the first byte of a character of several bytes: how many bytes, and the least and the
    greatest first one of them. -/
def lead? (b : UInt8) : Option (Nat × UInt8 × UInt8) :=
  if 0xC2 ≤ b && b ≤ 0xDF then some (1, 0x80, 0xBF)
  else if b == 0xE0 then some (2, 0xA0, 0xBF)
  else if b == 0xED then some (2, 0x80, 0x9F)
  else if 0xE1 ≤ b && b ≤ 0xEF then some (2, 0x80, 0xBF)
  else if b == 0xF0 then some (3, 0x90, 0xBF)
  else if 0xF1 ≤ b && b ≤ 0xF3 then some (3, 0x80, 0xBF)
  else if b == 0xF4 then some (3, 0x80, 0x8F)
  else none

/-- The longest run of at most `n` bytes of which the first is between `least` and `greatest` and the others
    are any continuation bytes. -/
def continuation (n : Nat) (least greatest : UInt8) : List UInt8 → List UInt8
  | [] => []
  | b :: rest =>
    if 0 < n && least ≤ b && b ≤ greatest then b :: continuation (n - 1) 0x80 0xBF rest else []

/-- The character of a first byte and its continuation bytes: the low bits of each, joined. -/
def join (first : UInt8) (tail : List UInt8) : Char :=
  let low := first.toNat % Nat.pow 2 (6 - tail.length)
  Char.ofNat (tail.foldl (fun v b => v * 64 + b.toNat % 64) low)

/-- A character, or a piece of bytes that encodes none. -/
inductive Piece where
  | char (c : Char)
  | malformed
  deriving DecidableEq

/-- The first piece of `b :: rest`, and how many bytes of `rest` belong to it. -/
def piece (b : UInt8) (rest : List UInt8) : Piece × Nat :=
  if b < 0x80 then (.char (Char.ofNat b.toNat), 0)
  else
    match lead? b with
    | none => (.malformed, 0)
    | some (n, least, greatest) =>
      let tail := continuation n least greatest rest
      (if tail.length = n then .char (join b tail) else .malformed, tail.length)

/-- Bytes as characters and malformed pieces. -/
def pieces : List UInt8 → List Piece
  | [] => []
  | b :: rest => (piece b rest).1 :: pieces (rest.drop (piece b rest).2)
  termination_by bytes => bytes.length
  decreasing_by simp only [List.length_drop, List.length_cons]; omega

/-- The character of a piece that has one. -/
def Piece.char? : Piece → Option Char
  | .char c => some c
  | .malformed => none

/-- The characters among the bytes. -/
def decode (bytes : List UInt8) : List Char :=
  (pieces bytes).filterMap Piece.char?

/-- The characters of the bytes, with a replacement character for each malformed piece. -/
def decodeMarked (bytes : List UInt8) : List Char :=
  (pieces bytes).map fun p => p.char?.getD (Char.ofNat 0xFFFD)

/-- The characters of the bytes, if no piece is malformed. -/
def decode? (bytes : List UInt8) : Option (List Char) :=
  (pieces bytes).mapM Piece.char?

end Utf8

end SystemUnit
