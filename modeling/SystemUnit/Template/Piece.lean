import SystemUnit.Template.Directive

namespace SystemUnit

/-!
# Patterns

A pattern is text with directives in it.  A doubled percent sign, and one at the very end, is text.  Main
definitions:

* `Piece.ofPattern` — the pieces of a pattern, in which no two texts are neighbours and no text is empty;
* `Piece.template` — the pattern written with field specifications between braces.
-/

/-- A piece of a pattern. -/
inductive Piece where
  | literal (text : List Char)
  | directive (d : Directive)
  deriving DecidableEq

namespace Piece

/-- Puts a character of text before the pieces, into the first one if that is text. -/
def cons (c : Char) : List Piece → List Piece
  | literal text :: rest => literal (c :: text) :: rest
  | pieces => literal [c] :: pieces

/-- The pieces of a pattern. -/
def ofPattern : List Char → List Piece
  | [] => []
  | c :: rest =>
    if c = '%' then
      match rest with
      | [] => cons '%' []
      | d :: rest =>
        if d = '%' then cons '%' (ofPattern rest)
        else directive (Directive.scan (d :: rest)).1 :: ofPattern (Directive.scan (d :: rest)).2
    else cons c (ofPattern rest)
  termination_by cs => cs.length
  decreasing_by
    · simp only [List.length_cons]; omega
    · have := Directive.length_scan_le (d :: rest)
      simp only [List.length_cons] at this ⊢
      omega
    · simp only [List.length_cons]; omega

/-- A piece in which a directive is a field specification between braces. -/
def text : Piece → List Char
  | literal text => text
  | directive d => ['\x7b', ':'] ++ d.fieldSpec.text ++ ['\x7d']

/-- A pattern written with field specifications. -/
def template (pattern : List Char) : List Char := (ofPattern pattern).flatMap text

end Piece

end SystemUnit
