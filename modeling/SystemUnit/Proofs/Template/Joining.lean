import SystemUnit.Proofs.Template.Patterns

namespace SystemUnit

/-!
# Patterns one behind another

A pattern is read from the left, and what has been read stays whatever comes behind it, unless the pattern stops
inside of a directive or behind a percent sign.  So patterns can be put together and read one by one, and only two texts
that meet at the seam become one.

* `Directive.scan_append` — a directive with a conversion ends there, whatever comes behind it;
* `Piece.join` — pieces one behind another, with one text at the seam for two;
* `Piece.EndsInPercent`, `Piece.EndsClosed` — patterns that stop behind a percent sign, and those that are complete;
* `Piece.ofPattern_append` — a complete pattern and any other one have the pieces of both;
* `Piece.endsClosed_iff_joins` — which holds of complete patterns and of no others.
-/

variable {c : Char} {cs rest : List Char}

/-! ### What comes behind a part of a directive -/

/-- A run ends before a character of another kind, or at the end if the rest does not go on with it. -/
theorem span_append {kind : Char → Bool} (ends : cs.dropWhile kind ≠ [] ∨ StartsWithout kind rest) :
    (cs ++ rest).takeWhile kind = cs.takeWhile kind ∧
      (cs ++ rest).dropWhile kind = cs.dropWhile kind ++ rest := by
  induction cs with
  | nil =>
    have start := ends.resolve_left fun ne => ne rfl
    exact ⟨takeWhile_eq_nil start, dropWhile_eq_self start⟩
  | cons c cs ih =>
    -- the run goes on, or it ends here whatever comes behind
    by_cases same : kind c = true
    · rw [List.dropWhile_cons_of_pos same] at ends
      obtain ⟨taken, dropped⟩ := ih ends
      rw [List.cons_append, List.takeWhile_cons_of_pos same, List.takeWhile_cons_of_pos same, taken,
        List.dropWhile_cons_of_pos same, List.dropWhile_cons_of_pos same, dropped]
      exact ⟨rfl, rfl⟩
    · rw [List.cons_append, List.takeWhile_cons_of_neg same, List.takeWhile_cons_of_neg same,
        List.dropWhile_cons_of_neg same, List.dropWhile_cons_of_neg same]
      exact ⟨rfl, rfl⟩

/-- Flags end at the same place with more text behind, if they end before that, or it does not begin with a flag. -/
theorem Flags.scan_append_rest (f : Flags)
    (ends : (f.scan cs).2 ≠ [] ∨ StartsWithout flagChars.contains rest) :
    f.scan (cs ++ rest) = ((f.scan cs).1, (f.scan cs).2 ++ rest) := by
  induction cs generalizing f with
  | nil =>
    have start := ends.resolve_left fun ne => ne rfl
    have scanned := scan_append f (List.forall_mem_nil _) start
    rw [union_nil] at scanned
    exact scanned
  | cons c cs ih =>
    by_cases flag : c ∈ flagChars
    · have added := add?_of_mem f flag
      have ih := ih (f.union (ofChars [c]))
      simp only [scan, List.cons_append, added] at ends ⊢
      exact ih ends
    · simp only [scan, List.cons_append, add?_of_not_mem f flag]

/-- So does a count. -/
theorem scanCount_append_rest (ends : (scanCount cs).2 ≠ [] ∨ StartsWithout Char.isDigit rest) :
    scanCount (cs ++ rest) = ((scanCount cs).1, (scanCount cs).2 ++ rest) := by
  obtain ⟨taken, dropped⟩ := span_append ends
  rw [scanCount, taken, dropped]
  rfl

/-- So does a precision. -/
theorem scanPrecision_append_rest
    (ends : (scanPrecision cs).2 ≠ [] ∨ StartsWithout Char.isDigit rest ∧ StartsWithout (· == '.') rest) :
    scanPrecision (cs ++ rest) = ((scanPrecision cs).1, (scanPrecision cs).2 ++ rest) := by
  cases cs with
  | nil =>
    obtain ⟨digit, point⟩ := ends.resolve_left fun ne => ne rfl
    have scanned : scanPrecision (precisionText none ++ rest) = (none, rest) := scanPrecision_precisionText digit point
    exact scanned
  | cons c cs =>
    -- behind a point there is a count
    by_cases point : c = '.'
    · subst point
      have count := scanCount_append_rest (ends.imp_right And.left : (scanCount cs).2 ≠ [] ∨ _)
      simp only [scanPrecision, List.cons_append, count]
    · simp [scanPrecision, point]

namespace Directive

/-- What is left of a directive behind its flags and counts. -/
def fromConversion (cs : List Char) : List Char := (scanPrecision (scanCount (Flags.scan { } cs).2).2).2

/-- Whether a character may stand before the conversion. -/
def isBeforeConversion (c : Char) : Bool := flagChars.contains c || c.isDigit || c == '.'

/-- The conversion of a directive is read from where its counts end. -/
theorem conversion_scan (cs : List Char) : (scan cs).1.conversion = (scanConversion (fromConversion cs)).1 := rfl

/-- A directive ends where its conversion does. -/
theorem scan_snd (cs : List Char) : (scan cs).2 = (scanConversion (fromConversion cs)).2 := rfl

/-- The conversion is missing exactly if nothing is left for it. -/
theorem conversion_scan_eq_missing_iff : (scan cs).1.conversion = .missing ↔ fromConversion cs = [] := by
  rw [conversion_scan]
  cases fromConversion cs with
  | nil => simp [scanConversion]
  | cons c rest =>
    simp only [scanConversion, reduceCtorEq, iff_false]
    unfold Conversion.ofChar
    split <;> simp

/-- Flags and counts that something stands behind are the same whatever comes behind that, and so are those at the end
    if what comes behind them does not go on with them. -/
theorem scan_append_fromConversion
    (ends : fromConversion cs ≠ [] ∨ StartsWithout isBeforeConversion rest) :
    scan (cs ++ rest) =
      ({ (scan cs).1 with conversion := (scanConversion (fromConversion cs ++ rest)).1 },
        (scanConversion (fromConversion cs ++ rest)).2) := by
  -- where something is left behind a part, something was left before it
  have behindCount : (scanCount (Flags.scan { } cs).2).2 = [] → fromConversion cs = [] := by
    intro none
    rw [fromConversion, none]
    rfl
  have behindFlags : (Flags.scan { } cs).2 = [] → fromConversion cs = [] := by
    intro none
    rw [fromConversion, none]
    rfl
  have starts : StartsWithout isBeforeConversion rest → StartsWithout flagChars.contains rest ∧
      StartsWithout Char.isDigit rest ∧ StartsWithout (· == '.') rest := by
    intro start
    simp only [StartsWithout, isBeforeConversion, Bool.or_eq_false_iff] at start
    exact ⟨fun c mem => (start c mem).1.1, fun c mem => (start c mem).1.2, fun c mem => (start c mem).2⟩
  have flags := Flags.scan_append_rest { } (ends.imp (mt behindFlags) fun start => (starts start).1)
  have width := scanCount_append_rest (ends.imp (mt behindCount) fun start => (starts start).2.1)
  have precision := scanPrecision_append_rest (ends.imp_right fun start => (starts start).2)
  simp only [scan, flags, width, precision, fromConversion]

/-- **A directive with a conversion ends there**, whatever comes behind it. -/
theorem scan_append (complete : (scan cs).1.conversion ≠ .missing) (rest : List Char) :
    scan (cs ++ rest) = ((scan cs).1, (scan cs).2 ++ rest) := by
  have left := mt conversion_scan_eq_missing_iff.mpr complete
  rw [scan_append_fromConversion (.inl left), scan_snd]
  have conversion := conversion_scan cs
  cases stop : fromConversion cs with
  | nil => exact absurd stop left
  | cons c tail =>
    rw [stop] at conversion
    simp only [scanConversion, List.cons_append] at conversion ⊢
    rw [← conversion]

/-- A directive without a conversion takes a letter that comes behind it. -/
theorem scan_append_letter (missing : (scan cs).1.conversion = .missing) (letter : isBeforeConversion c = false) :
    (scan (cs ++ [c])).2 = [] := by
  rw [scan_append_fromConversion (.inr (startsWithout_cons.mpr letter)), conversion_scan_eq_missing_iff.mp missing]
  rfl

end Directive

namespace Piece

variable {p q : List Char} {ps qs : List Piece} {d : Directive}

/-! ### Pieces one behind another -/

/-- Pieces one behind another.  Two texts that meet at the seam become one. -/
def join : List Piece → List Piece → List Piece
  | [], qs => qs
  | [literal t], literal u :: qs => literal (t ++ u) :: qs
  | p :: ps, qs => p :: join ps qs

/-- A directive stays in front. -/
theorem join_directive (d : Directive) (ps qs : List Piece) :
    join (directive d :: ps) qs = directive d :: join ps qs := by
  rw [join]
  simp

/-- Pieces that others stand behind are not at the seam. -/
theorem join_cons_cons (p q : Piece) (ps qs : List Piece) : join (p :: q :: ps) qs = p :: join (q :: ps) qs := by
  rw [join]
  simp

/-- A character of text before the pieces on the left is one before all of them. -/
theorem join_cons (c : Char) (ps qs : List Piece) : join (cons c ps) qs = cons c (join ps qs) := by
  match ps, qs with
  | [], [] | [], literal u :: qs | [], directive d :: qs => rfl
  | directive d :: ps, qs =>
    rw [join_directive]
    show join (literal [c] :: directive d :: ps) qs = literal [c] :: directive d :: join ps qs
    rw [join_cons_cons, join_directive]
  | [literal t], [] | [literal t], literal u :: qs | [literal t], directive d :: qs => rfl
  | literal t :: p :: ps, qs =>
    show join (literal (c :: t) :: p :: ps) qs = cons c (join (literal t :: p :: ps) qs)
    rw [join_cons_cons, join_cons_cons]
    rfl

/-- The template of joined pieces is that of both. -/
theorem flatMap_text_join (ps qs : List Piece) :
    (join ps qs).flatMap text = ps.flatMap text ++ qs.flatMap text := by
  fun_induction join ps qs with
  | case1 => rfl
  | case2 => simp [text]
  | case3 _ _ _ _ ih => rw [List.flatMap_cons, ih, List.flatMap_cons, List.append_assoc]

/-- A character of text before the pieces makes no difference to a directive at the end. -/
theorem getLast?_cons_eq_directive :
    (cons c ps).getLast? = some (directive d) ↔ ps.getLast? = some (directive d) := by
  match ps with
  | [] => simp [cons]
  | directive e :: ps => simp [cons, List.getLast?_cons_cons]
  | [literal t] => simp [cons]
  | literal t :: p :: ps => simp [cons, List.getLast?_cons_cons]

/-- Behind a directive at the end stands a closing brace. -/
theorem getLast?_flatMap_text (last : ps.getLast? = some (directive d)) :
    (ps.flatMap text).getLast? = some '\x7d' := by
  obtain ⟨init, rfl⟩ := List.getLast?_eq_some_iff.mp last
  rw [List.flatMap_append, List.flatMap_singleton, text, ← List.append_assoc, List.getLast?_concat]

/-! ### Where a pattern stops -/

/-- A pattern stops behind a percent sign: text, doubled percent signs and directives lead up to a last sign, which
    therefore begins something. -/
inductive EndsInPercent : List Char → Prop where
  | alone : EndsInPercent ['%']
  | text {c : Char} {rest : List Char} (ne : c ≠ '%') (ends : EndsInPercent rest) : EndsInPercent (c :: rest)
  | doubled {rest : List Char} (ends : EndsInPercent rest) : EndsInPercent ('%' :: '%' :: rest)
  | directive {c : Char} {rest : List Char} (ne : c ≠ '%') (ends : EndsInPercent (Directive.scan (c :: rest)).2) :
      EndsInPercent ('%' :: c :: rest)

/-- A pattern is complete: it does not stop inside of a directive, nor behind a percent sign that is not doubled. -/
structure EndsClosed (pattern : List Char) : Prop where
  complete : ∀ d, (ofPattern pattern).getLast? = some (directive d) → d.conversion ≠ .missing
  escaped : ¬ EndsInPercent pattern

/-- The empty pattern has no pieces. -/
theorem ofPattern_nil : ofPattern [] = [] := by
  rw [ofPattern]

/-- A percent sign alone stands for itself. -/
theorem ofPattern_percent : ofPattern ['%'] = [literal ['%']] := by
  rw [ofPattern, if_pos rfl]
  rfl

/-- A pattern that ends in a percent sign is not empty. -/
theorem EndsInPercent.ne_nil (ends : EndsInPercent p) : p ≠ [] := by
  rintro rfl
  cases ends

/-- A directive that something is left behind has a conversion. -/
theorem conversion_ne_missing_of_left (left : (Directive.scan cs).2 ≠ []) :
    (Directive.scan cs).1.conversion ≠ .missing := by
  intro missing
  rw [Directive.scan_snd, Directive.conversion_scan_eq_missing_iff.mp missing] at left
  exact left rfl

namespace EndsClosed

/-- A pattern that is complete is so behind a character of text. -/
theorem of_text (ne : c ≠ '%') (closed : EndsClosed (c :: rest)) : EndsClosed rest where
  complete d last := by
    refine closed.complete d ?_
    rw [ofPattern_cons ne]
    exact getLast?_cons_eq_directive.mpr last
  escaped ends := closed.escaped (.text ne ends)

/-- So is it behind two percent signs. -/
theorem of_doubled (closed : EndsClosed ('%' :: '%' :: rest)) : EndsClosed rest where
  complete d last := by
    refine closed.complete d ?_
    rw [ofPattern_doubled]
    exact getLast?_cons_eq_directive.mpr last
  escaped ends := closed.escaped (.doubled ends)

/-- A complete pattern that begins with a directive has a conversion there, and goes on as a complete one. -/
theorem of_directive (ne : c ≠ '%') (closed : EndsClosed ('%' :: c :: rest)) :
    (Directive.scan (c :: rest)).1.conversion ≠ .missing ∧ EndsClosed (Directive.scan (c :: rest)).2 := by
  have last : ∀ d, ((ofPattern (Directive.scan (c :: rest)).2).getLast?.getD
      (.directive (Directive.scan (c :: rest)).1)) = .directive d → d.conversion ≠ .missing := by
    intro d same
    refine closed.complete d ?_
    rw [ofPattern_directive ne, List.getLast?_cons, same]
  refine ⟨fun missing => ?_, fun d same => last d ?_, fun ends => closed.escaped (.directive ne ends)⟩
  · -- without a conversion nothing is left, and the directive is the last piece
    refine last (Directive.scan (c :: rest)).1 ?_ missing
    rw [Directive.scan_snd, Directive.conversion_scan_eq_missing_iff.mp missing]
    show (ofPattern []).getLast?.getD _ = _
    rw [ofPattern_nil]
    rfl
  · rw [same]
    rfl

end EndsClosed

/-! ### Patterns one behind another -/

/-- **A complete pattern and another one behind it have the pieces of both.** -/
theorem ofPattern_append (closed : EndsClosed p) (q : List Char) :
    ofPattern (p ++ q) = join (ofPattern p) (ofPattern q) := by
  -- over the pattern on the left: what is read first of it is read first of both
  fun_induction ofPattern p with
  | case1 => rfl
  | case2 => exact absurd .alone closed.escaped
  | case3 rest ih =>
    rw [List.cons_append, List.cons_append, ofPattern_doubled, join_cons, ih closed.of_doubled]
  | case4 c rest ne ih =>
    obtain ⟨complete, behind⟩ := closed.of_directive ne
    have scanned := Directive.scan_append complete q
    rw [List.cons_append] at scanned
    rw [List.cons_append, List.cons_append, ofPattern_directive ne, scanned, join_directive, ih behind]
  | case5 c rest ne ih =>
    rw [List.cons_append, ofPattern_cons ne, join_cons, ih (closed.of_text ne)]

/-- A pattern that stops behind a percent sign has the same pieces with another sign behind that. -/
theorem ofPattern_append_percent (ends : EndsInPercent p) : ofPattern (p ++ ['%']) = ofPattern p := by
  induction ends with
  | alone =>
    rw [ofPattern_percent]
    show ofPattern ['%', '%'] = _
    rw [ofPattern_doubled, ofPattern_nil]
    rfl
  | text ne _ ih => rw [List.cons_append, ofPattern_cons ne, ofPattern_cons ne, ih]
  | doubled _ ih => rw [List.cons_append, List.cons_append, ofPattern_doubled, ofPattern_doubled, ih]
  -- the directive is over, so that the percent sign is none of its business
  | @directive c rest ne ends ih =>
    have scanned := Directive.scan_append (conversion_ne_missing_of_left ends.ne_nil) ['%']
    rw [List.cons_append] at scanned
    rw [List.cons_append, List.cons_append, ofPattern_directive ne, ofPattern_directive ne, scanned, ih]

/-- A pattern that stops inside of a directive ends with a directive also with a letter behind it. -/
theorem getLast?_ofPattern_append_letter (last : (ofPattern p).getLast? = some (directive d))
    (missing : d.conversion = .missing) : ∃ e, (ofPattern (p ++ ['d'])).getLast? = some (directive e) := by
  fun_induction ofPattern p with
  | case1 => cases last
  | case2 => cases last
  | case3 rest ih =>
    obtain ⟨e, at_end⟩ := ih (getLast?_cons_eq_directive.mp last)
    rw [List.cons_append, List.cons_append, ofPattern_doubled]
    exact ⟨e, getLast?_cons_eq_directive.mpr at_end⟩
  | case4 c rest ne ih =>
    rw [List.cons_append, List.cons_append, ofPattern_directive ne]
    by_cases unfinished : (Directive.scan (c :: rest)).1.conversion = .missing
    · -- the directive takes the letter
      have taken := Directive.scan_append_letter unfinished (c := 'd') (by decide)
      rw [List.cons_append] at taken
      rw [taken, ofPattern_nil]
      exact ⟨_, rfl⟩
    · have scanned := Directive.scan_append unfinished ['d']
      rw [List.cons_append] at scanned
      rw [scanned]
      -- this directive has its conversion, so that the last one is another
      cases behind : (ofPattern (Directive.scan (c :: rest)).2).getLast? with
      | none =>
        rw [List.getLast?_cons, behind] at last
        cases last
        exact absurd missing unfinished
      | some piece =>
        rw [List.getLast?_cons, behind] at last
        cases last
        obtain ⟨e, at_end⟩ := ih behind
        refine ⟨e, ?_⟩
        rw [List.getLast?_cons, at_end]
        rfl
  | case5 c rest ne ih =>
    obtain ⟨e, at_end⟩ := ih (getLast?_cons_eq_directive.mp last)
    rw [List.cons_append, ofPattern_cons ne]
    exact ⟨e, getLast?_cons_eq_directive.mpr at_end⟩

/-- A pattern whose template can be put before that of any other one is complete. -/
theorem endsClosed_of_template (joins : ∀ q, template (p ++ q) = template p ++ template q) : EndsClosed p where
  complete d last missing := by
    -- with a letter behind the directive, the template ends with a brace and not with the letter
    obtain ⟨e, at_end⟩ := getLast?_ofPattern_append_letter last missing
    have brace : (template (p ++ ['d'])).getLast? = some '\x7d' := getLast?_flatMap_text at_end
    have letter : template ['d'] = ['d'] := by decide +kernel
    rw [joins, letter, List.getLast?_concat] at brace
    cases brace
  escaped ends := by
    have same : template (p ++ ['%']) = template p := by
      rw [template, ofPattern_append_percent ends, template]
    have percent : template ['%'] = ['%'] := by decide +kernel
    rw [joins, percent] at same
    simp at same

/-- **Complete patterns are those that others can be put behind.**  A pattern is complete exactly if, with any other
    pattern behind it, the pieces are those of both, and exactly if the template is that of both. -/
theorem endsClosed_iff_joins (p : List Char) :
    (EndsClosed p ↔ ∀ q, ofPattern (p ++ q) = join (ofPattern p) (ofPattern q)) ∧
      (EndsClosed p ↔ ∀ q, template (p ++ q) = template p ++ template q) := by
  have templates : (∀ q, ofPattern (p ++ q) = join (ofPattern p) (ofPattern q)) →
      ∀ q, template (p ++ q) = template p ++ template q := by
    intro joins q
    rw [template, joins, flatMap_text_join, template, template]
  refine ⟨⟨ofPattern_append, fun joins => endsClosed_of_template (templates joins)⟩, ?_⟩
  exact ⟨fun closed => templates (ofPattern_append closed), endsClosed_of_template⟩

-- a percent sign at the end may be a conversion, and is then not a sign that begins something
example : template ("5%% %5%".toList ++ "%d".toList) = template "5%% %5%".toList ++ template "%d".toList := by
  decide +kernel

end Piece

end SystemUnit
