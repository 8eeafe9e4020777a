namespace SystemUnit

/-!
# Digits

Natural numbers as words of digits in a radix up to sixteen, and back.  Main definitions:

* `Digits.ofNat`, `Digits.value` — the digits of a number, most significant first, and their value;
* `Digits.char`, `Digits.ofCode` — a digit as a character, and the digit a character code stands for;
* `Digits.decimal`, `Digits.hex` — the text of a number;
* `Digits.read?` — the number of a text.
-/

namespace Digits

/-- Puts the digits of `n` before `rest`; zero has no digit. -/
def push (radix n : Nat) (rest : List Nat) : List Nat :=
  if _ : 2 ≤ radix ∧ 0 < n then push radix (n / radix) (n % radix :: rest) else rest
  termination_by n
  decreasing_by exact Nat.div_lt_self (by omega) (by omega)

/-- The digits of `n`, most significant first; zero is one digit. -/
def ofNat (radix n : Nat) : List Nat :=
  if n = 0 then [0] else push radix n []

/-- The number that a word of digits stands for. -/
def value (radix : Nat) (ds : List Nat) : Nat :=
  ds.foldl (fun v d => v * radix + d) 0

/-- The character of a digit below sixteen. -/
def char (upper : Bool) (d : Nat) : Char :=
  if d < 10 then Char.ofNat (0x30 + d)
  else Char.ofNat ((if upper then 0x41 else 0x61) + (d - 10))

/-- The digit that a character code stands for in a radix, letters in either case. -/
def ofCode (radix code : Nat) : Option Nat :=
  let d? :=
    if 0x30 ≤ code ∧ code ≤ 0x39 then some (code - 0x30)
    else if 0x41 ≤ code ∧ code ≤ 0x46 then some (code - 0x41 + 10)
    else if 0x61 ≤ code ∧ code ≤ 0x66 then some (code - 0x61 + 10)
    else none
  d?.filter (· < radix)

/-- A natural number in decimal. -/
def decimal (n : Nat) : List Char :=
  (ofNat 10 n).map (char false)

/-- A natural number in base sixteen, with letters in upper or lower case. -/
def hex (upper : Bool) (n : Nat) : List Char :=
  (ofNat 16 n).map (char upper)

/-- An integer in decimal, with a minus sign if it is negative. -/
def signedDecimal (n : Int) : List Char :=
  if n < 0 then '-' :: decimal n.natAbs else decimal n.natAbs

/-- The number that a word of digit characters stands for; none if there is no digit or another character. -/
def read? (radix : Nat) (text : List Char) : Option Nat :=
  if text.isEmpty then none else (text.mapM fun c => ofCode radix c.toNat).map (value radix)

/-- The greatest width that may be asked for where a width is a number of 16 bits. -/
def greatestWidth : Nat := 65535

/-- A text with `fill` before it up to `width` characters. -/
def padLeft (fill : Char) (width : Nat) (text : List Char) : List Char :=
  List.replicate (width - text.length) fill ++ text

/-! ### Words and their values -/

/-- Putting digits before a word is reading the word after the number that they stand for. -/
theorem value_push (radix n : Nat) (h : 2 ≤ radix) (rest : List Nat) :
    value radix (push radix n rest) = rest.foldl (fun v d => v * radix + d) n := by
  fun_induction push radix n rest with
  | case1 n rest hn ih => rw [ih, List.foldl_cons, Nat.div_add_mod']
  | case2 n rest hn =>
    have : n = 0 := by omega
    rw [this, value]

/-- The digits of a number have its value. -/
@[simp] theorem value_ofNat (radix n : Nat) (h : 2 ≤ radix) : value radix (ofNat radix n) = n := by
  unfold ofNat
  split
  · simp [value, *]
  · exact value_push radix n h []

end Digits

end SystemUnit
