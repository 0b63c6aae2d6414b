import ScriptLexer.Proofs.Consuming

/-!
The scanner reads the longest lexeme. A lexeme at which it has to stop is read in
one or two steps of the cursor, one lemma for each class. In each of them the
conditions on what follows are those that the code looks at; that no lexeme goes
on implies them, because going on would make a lexeme of the same class, or of the
one that it turns into. Some lexeme is the longest, so the scanner reads that one
and never another.
-/

namespace ScriptLexer

namespace Reading

open Lexeme

/-! ### The first character -/

theorem ofMark?_eq_none {c : Char} (h : c ∉ marks) : Kind.ofMark? c = none := by
  unfold Kind.ofMark?
  split <;> first | rfl | exact absurd (by decide) h

theorem ofOperator?_eq_none {c : Char} (h : c ∉ operators) : Kind.ofOperator? c = none := by
  unfold Kind.ofOperator?
  split <;> first | rfl | exact absurd (by decide) h

theorem afterFirst_mark {first : Char} {kind : Kind} (h : Kind.ofMark? first = some kind)
    (c : Cursor) : afterFirst first c = (.token kind none, c) := by
  simp [afterFirst, h]

theorem ofMark?_of_operator {c : Char} (h : c ∈ operators) : Kind.ofMark? c = none := by
  have hall : operators.all (fun c => (Kind.ofMark? c).isNone) = true := by decide
  exact Option.isNone_iff_eq_none.1 (List.all_eq_true.1 hall c h)

theorem afterFirst_slash (c : Cursor) : afterFirst '/' c = afterSlash c := rfl

theorem afterFirst_blank {first : Char} (h : first ∈ blanks) (hline : first ≠ '\n') (c : Cursor) :
    afterFirst first c = (.skipped, c) := by
  simp only [blanks, List.mem_cons, List.not_mem_nil, or_false] at h
  rcases h with rfl | rfl | rfl | rfl
  · rfl
  · rfl
  · rfl
  · contradiction

theorem afterFirst_quote {first : Char} (h : first ∈ quotes) (c : Cursor) :
    afterFirst first c = afterQuote first c := by
  simp only [quotes, List.mem_cons, List.not_mem_nil, or_false] at h
  rcases h with rfl | rfl <;> rfl

/-- Of a character that is neither punctuation nor blank, the scanner asks only
whether it is a digit, and then whether it begins a word. -/
theorem afterFirst_of_not_starter {first : Char} (h : first ∉ starters) (c : Cursor) :
    afterFirst first c =
      if first.isDigit then afterDigit first c
      else if isWordStart first then afterWordStart first c
      else (.fault (.invalidCharacter first), c) := by
  simp only [starters, List.mem_append, not_or, List.mem_singleton] at h
  obtain ⟨⟨⟨⟨hmark, hoperator⟩, hslash⟩, hquote⟩, hblank⟩ := h
  simp only [quotes, blanks, List.mem_cons, List.not_mem_nil, or_false, not_or] at hquote hblank
  simp [afterFirst, ofMark?_eq_none hmark, ofOperator?_eq_none hoperator, hslash, hquote, hblank]

theorem not_starter_of_isDigit {c : Char} (h : c.isDigit = true) : c ∉ starters := by
  intro hmem
  have hall : starters.all (fun c => !c.isDigit) = true := by decide
  simpa [h] using List.all_eq_true.1 hall c hmem

theorem not_starter_of_isWordStart {c : Char} (h : IsWordStart c) : c ∉ starters := by
  intro hmem
  have hall : starters.all (fun c => !decide (IsWordStart c)) = true := by decide
  simpa [h] using List.all_eq_true.1 hall c hmem

theorem isDigit_eq_false_of_isWordStart {c : Char} (h : IsWordStart c) :
    c.isDigit = false := by
  simp only [Char.isDigit, Bool.and_eq_false_iff, decide_eq_false_iff_not]
  rcases h with ⟨h, -⟩ | ⟨h, -⟩ | rfl
  · exact .inr fun h' => absurd (UInt32.le_trans h h') (by decide)
  · exact .inr fun h' => absurd (UInt32.le_trans h h') (by decide)
  · decide

theorem afterFirst_digit {first : Char} (h : first.isDigit = true) (c : Cursor) :
    afterFirst first c = afterDigit first c := by
  rw [afterFirst_of_not_starter (not_starter_of_isDigit h), if_pos h]

theorem afterFirst_wordStart {first : Char} (h : IsWordStart first) (c : Cursor) :
    afterFirst first c = afterWordStart first c := by
  rw [afterFirst_of_not_starter (not_starter_of_isWordStart h),
    isDigit_eq_false_of_isWordStart h, if_neg Bool.false_ne_true, if_pos (isWordStart_iff.2 h)]

theorem afterFirst_stray {first : Char} (h : IsStray first) (c : Cursor) :
    afterFirst first c = (.fault (.invalidCharacter first), c) := by
  rw [afterFirst_of_not_starter h.not_starter, h.not_digit, if_neg Bool.false_ne_true,
    if_neg (mt isWordStart_iff.1 h.not_wordStart)]

theorem next?_eq {c : Cursor} {first : Char} {rest : List Char} (h : c.rest = first :: rest)
    (hline : first ≠ '\n') :
    next? c = some (afterFirst first (c.past [first] rest)) := by
  rw [next?_eq_some h, Cursor.past, Cursor.consume_eq_take (by simpa using hline.symm)]

/-! ### Reading a lexeme of each class -/

section

variable {c : Cursor} {rest : List Char}

theorem next?_mark {first : Char} {kind : Kind} (hfirst : first ∈ marks)
    (hkind : Kind.ofMark? first = some kind) (h : c.rest = first :: rest) :
    next? c = some (.token kind none, c.past [first] rest) := by
  have hline : first ≠ '\n' := ne_of_mem_of_not_mem hfirst (by decide)
  rw [next?_eq h hline, afterFirst_mark hkind]

theorem next?_operator {first : Char} {pair : Kind.OperatorPair} (hfirst : first ∈ operators)
    (hpair : Kind.ofOperator? first = some pair) (h : c.rest = first :: rest)
    (hrest : '=' ∉ rest.head?) :
    next? c = some (.token pair.alone none, c.past [first] rest) := by
  have hline : first ≠ '\n' := ne_of_mem_of_not_mem hfirst (by decide)
  have haccept : (c.past [first] rest).accept '=' = (false, c.past [first] rest) :=
    Cursor.accept_of_ne hrest
  rw [next?_eq h hline]
  simp [afterFirst, ofMark?_of_operator hfirst, hpair, haccept]

theorem next?_operatorEqual {first : Char} {pair : Kind.OperatorPair}
    (hfirst : first ∈ operators) (hpair : Kind.ofOperator? first = some pair)
    (h : c.rest = first :: '=' :: rest) :
    next? c = some (.token pair.withEqual none, c.past [first, '='] rest) := by
  have hline : first ≠ '\n' := ne_of_mem_of_not_mem hfirst (by decide)
  have haccept : (c.past [first] ('=' :: rest)).accept '=' = (true, c.past [first, '='] rest) := by
    rw [Cursor.accept_of_eq rfl (by decide), Cursor.past, Cursor.consume_consume]
    rfl
  rw [next?_eq h hline]
  simp [afterFirst, ofMark?_of_operator hfirst, hpair, haccept]

theorem next?_slash (h : c.rest = '/' :: rest) (hline : '/' ∉ rest.head?)
    (hblock : '*' ∉ rest.head?) : next? c = some (.token .slash none, c.past ['/'] rest) := by
  have hslash : (c.past ['/'] rest).accept '/' = (false, c.past ['/'] rest) :=
    Cursor.accept_of_ne hline
  have hstar : (c.past ['/'] rest).accept '*' = (false, c.past ['/'] rest) :=
    Cursor.accept_of_ne hblock
  rw [next?_eq h (by decide), afterFirst_slash]
  simp [afterSlash, hslash, hstar]

theorem next?_lineComment {body : List Char} (h : c.rest = '/' :: '/' :: (body ++ rest))
    (hbody : '\n' ∉ body) (hrest : ∀ x ∈ rest.head?, x = '\n') :
    next? c = some (.skipped, c.past ('/' :: '/' :: body) rest) := by
  rw [next?_eq h (by decide), afterFirst_slash, afterSlash, Cursor.accept_of_eq rfl (by decide)]
  simp only [Cursor.takeUpTo_eq (Cursor.consume_rest ..) hbody hrest, Cursor.past,
    Cursor.consume_consume]
  rfl

theorem next?_block (h : c.rest = '/' :: '*' :: rest) :
    next? c = some (match (c.past ['/', '*'] rest).takePast commentEnd with
      | (some _, c) => (.skipped, c)
      | (none, c) => (.fault .unterminatedComment, c)) := by
  have hslash : (c.past ['/'] ('*' :: rest)).accept '/' = (false, c.past ['/'] ('*' :: rest)) :=
    Cursor.accept_of_ne (by simp)
  have hstar : (c.past ['/'] ('*' :: rest)).accept '*' = (true, c.past ['/', '*'] rest) := by
    rw [Cursor.accept_of_eq rfl (by decide), Cursor.past, Cursor.consume_consume]
    rfl
  rw [next?_eq h (by decide), afterFirst_slash]
  simp only [afterSlash, hslash, hstar]
  rfl

theorem next?_blockComment {body : List Char} (hbody : ClosedBy commentEnd body)
    (h : c.rest = '/' :: '*' :: (body ++ commentEnd ++ rest)) :
    next? c = some (.skipped, c.past ('/' :: '*' :: (body ++ commentEnd)) rest) := by
  rw [next?_block h, Cursor.takePast_of_closedBy (Cursor.past_rest ..) hbody (by decide),
    Cursor.past, Cursor.consume_consume]
  rfl

theorem next?_openComment {body : List Char} (hbody : ¬ commentEnd <:+: body)
    (h : c.rest = '/' :: '*' :: body) :
    next? c = some (.fault .unterminatedComment, c.past ('/' :: '*' :: body) []) := by
  rw [next?_block h, Cursor.takePast_of_not_infix hbody, Cursor.past_rest, Cursor.past,
    Cursor.consume_consume]
  rfl

theorem next?_string {quote : Char} {body : List Char} (hquote : quote ∈ quotes)
    (hbody : quote ∉ body) (h : c.rest = quote :: (body ++ quote :: rest)) :
    next? c = some (.token .string (some (.text (String.ofList body))),
      c.past (quote :: (body ++ [quote])) rest) := by
  have hline : quote ≠ '\n' := ne_of_mem_of_not_mem hquote (by decide)
  rw [next?_eq h hline, afterFirst_quote hquote, afterQuote,
    Cursor.takeUpTo_eq (Cursor.past_rest ..) hbody (by simp)]
  simp only [Cursor.accept_of_eq (Cursor.consume_rest ..) hline, Cursor.past,
    Cursor.consume_consume]
  rfl

theorem next?_openString {quote : Char} {body : List Char} (hquote : quote ∈ quotes)
    (hbody : quote ∉ body) (h : c.rest = quote :: body) :
    next? c = some (.fault .unterminatedString, c.past (quote :: body) []) := by
  have hline : quote ≠ '\n' := ne_of_mem_of_not_mem hquote (by decide)
  have hbody : (c.past [quote] body).takeUpTo quote = (body, c.past (quote :: body) []) := by
    rw [Cursor.takeUpTo_eq (List.append_nil _).symm hbody (by simp), Cursor.past,
      Cursor.consume_consume]
    rfl
  have hclose : (c.past (quote :: body) []).accept quote = (false, c.past (quote :: body) []) :=
    Cursor.accept_of_ne (by simp)
  rw [next?_eq h hline, afterFirst_quote hquote]
  simp only [afterQuote, hbody, hclose]

theorem next?_digits {first : Char} {more : List Char}
    (hdigits : ∀ x ∈ first :: more, x.isDigit = true) (h : c.rest = first :: (more ++ rest))
    (hrest : ∀ x ∈ rest.head?, x.isDigit = false) :
    next? c = some (match (c.past (first :: more) rest).takeFraction with
      | (some fraction, c) => (ofDecimal (first :: more) fraction, c)
      | (none, c) => (ofInteger (first :: more), c)) := by
  have hfirst : first.isDigit = true := hdigits first List.mem_cons_self
  have hline : first ≠ '\n' := by
    rintro rfl
    contradiction
  have hmore : ∀ x ∈ more, x.isDigit = true := fun x hx => hdigits x (List.mem_cons_of_mem _ hx)
  have hrun : (c.past [first] (more ++ rest)).takeRun Char.isDigit =
      (more, c.past (first :: more) rest) := by
    rw [Cursor.takeRun_eq (Cursor.past_rest ..) hmore hrest (by decide), Cursor.past,
      Cursor.consume_consume]
    rfl
  rewrite [next?_eq h hline, afterFirst_digit hfirst, afterDigit, hrun]
  rfl

theorem next?_integer {digits : List Char} (hdigits : Digits digits) (h : c.rest = digits ++ rest)
    (hrest : ∀ x ∈ rest.head?, x.isDigit = false)
    (hfraction : ∀ x more, rest = '.' :: x :: more → x.isDigit = false) :
    next? c = some (ofInteger digits, c.past digits rest) := by
  obtain ⟨first, more, rfl⟩ := List.exists_cons_of_ne_nil hdigits.1
  have hnone : (c.past (first :: more) rest).takeFraction = (none, c.past (first :: more) rest) :=
    Cursor.takeFraction_eq_none hfraction
  rw [next?_digits hdigits.2 h hrest, hnone]

theorem next?_decimal {whole fraction : List Char} (hwhole : Digits whole)
    (hfraction : Digits fraction) (h : c.rest = whole ++ '.' :: (fraction ++ rest))
    (hrest : ∀ x ∈ rest.head?, x.isDigit = false) :
    next? c = some (ofDecimal whole fraction, c.past (whole ++ '.' :: fraction) rest) := by
  obtain ⟨first, more, rfl⟩ := List.exists_cons_of_ne_nil hwhole.1
  rw [next?_digits hwhole.2 h (by simp),
    Cursor.takeFraction_eq (Cursor.past_rest ..) hfraction hrest, Cursor.past,
    Cursor.consume_consume]
  rfl

theorem next?_word {first : Char} {more : List Char} (hfirst : IsWordStart first)
    (hmore : ∀ x ∈ more, IsWordPart x) (h : c.rest = first :: (more ++ rest))
    (hrest : ∀ x ∈ rest.head?, ¬ IsWordPart x) :
    next? c = some (.token (wordKind (String.ofList (first :: more))) none,
      c.past (first :: more) rest) := by
  have hline : first ≠ '\n' := by
    rintro rfl
    exact absurd hfirst (by decide)
  have htaken : ∀ x ∈ more, isWordPart x = true := fun x hx => isWordPart_iff.2 (hmore x hx)
  have hleft : ∀ x ∈ rest.head?, isWordPart x = false :=
    fun x hx => eq_false_of_ne_true (mt isWordPart_iff.1 (hrest x hx))
  rw [next?_eq h hline, afterFirst_wordStart hfirst, afterWordStart,
    Cursor.takeRun_eq (Cursor.past_rest ..) htaken hleft (by decide), Cursor.past,
    Cursor.consume_consume, ← ofWord_eq_wordKind hfirst]
  rfl

theorem next?_blank {first : Char} (hfirst : first ∈ blanks) (h : c.rest = first :: rest) :
    next? c = some (.skipped, c.past [first] rest) := by
  by_cases hline : first = '\n'
  · -- The one character whose line is counted by the loop itself.
    subst hline
    rw [next?_eq_some h]
    rfl
  · rw [next?_eq h hline, afterFirst_blank hfirst hline]

theorem next?_stray {first : Char} (hfirst : IsStray first) (h : c.rest = first :: rest) :
    next? c = some (.fault (.invalidCharacter first), c.past [first] rest) := by
  have hline : first ≠ '\n' := by
    rintro rfl
    exact hfirst.not_starter (by decide)
  rw [next?_eq h hline, afterFirst_stray hfirst]

/-! ### Reading a lexeme that stops -/

theorem next?_integer_of_stops {digits : List Char} (hdigits : Digits digits)
    (hstops : Stops digits rest) (h : c.rest = digits ++ rest) :
    next? c = some (ofInteger digits, c.past digits rest) :=
  next?_integer hdigits h (hstops.not_isDigit hdigits) (hstops.not_isDigit_of_point hdigits)

theorem next?_decimal_of_stops {whole fraction : List Char} (hwhole : Digits whole)
    (hfraction : Digits fraction) (hstops : Stops (whole ++ '.' :: fraction) rest)
    (h : c.rest = whole ++ '.' :: fraction ++ rest) :
    next? c = some (ofDecimal whole fraction, c.past (whole ++ '.' :: fraction) rest) :=
  next?_decimal hwhole hfraction (by simpa using h)
    (hstops.not_isDigit_of_decimal hwhole hfraction)

theorem next?_of_stops {text : List Char} {reading : Reading} (hlexeme : Lexeme text reading)
    (hstops : Stops text rest) (h : c.rest = text ++ rest) :
    next? c = some (reading, c.past text rest) := by
  cases hlexeme with
  | mark hc hkind => exact next?_mark hc hkind h
  | operator hc hpair => exact next?_operator hc hpair h (hstops.equal_not_mem_head? hc)
  | operatorEqual hc hpair => exact next?_operatorEqual hc hpair h
  | slash =>
      obtain ⟨hline, hblock⟩ := hstops.slash_star_not_mem_head?
      exact next?_slash h hline hblock
  | lineComment hbody => exact next?_lineComment h hbody (hstops.eq_lineFeed hbody)
  | blockComment hbody =>
      refine next?_blockComment hbody ?_
      simpa using h
  | openComment hbody =>
      obtain rfl := hstops.eq_nil (exists_of_openComment hbody)
      rw [List.append_nil] at h
      exact next?_openComment hbody h
  | string hquote hbody =>
      refine next?_string hquote hbody ?_
      simpa using h
  | openString hquote hbody =>
      obtain rfl := hstops.eq_nil (exists_of_openString hquote hbody)
      rw [List.append_nil] at h
      exact next?_openString hquote hbody h
  | word hfirst hmore =>
      exact next?_word hfirst hmore h (hstops.not_isWordPart hfirst hmore)
  | blank hc => exact next?_blank hc h
  | stray hc => exact next?_stray hc h
  | integer hdigits hvalue =>
      rw [next?_integer_of_stops hdigits hstops h, ofInteger_eq hdigits.1 hdigits.2,
        if_pos hvalue]
  | greatInteger hdigits hvalue =>
      rw [next?_integer_of_stops hdigits hstops h, ofInteger_eq hdigits.1 hdigits.2,
        if_neg (Nat.not_le.2 hvalue)]
  | decimal hwhole hfraction hvalue =>
      rw [next?_decimal_of_stops hwhole hfraction hstops h,
        ofDecimal_eq hwhole.1 hwhole.2 hfraction.2, hvalue]
  | greatDecimal hwhole hfraction hvalue =>
      rw [next?_decimal_of_stops hwhole hfraction hstops h,
        ofDecimal_eq hwhole.1 hwhole.2 hfraction.2, hvalue]

end

end Reading

namespace Lexeme

theorem stops_nil (text : List Char) : Stops text [] := by
  intro more hmore _ hbegins
  exact absurd (List.prefix_nil.1 hbegins) hmore

theorem unique {text : List Char} {reading other : Reading} (h : Lexeme text reading)
    (hother : Lexeme text other) : other = reading := by
  have hrest : (Cursor.ofText text).rest = text ++ [] := (List.append_nil text).symm
  have hread := Reading.next?_of_stops h (stops_nil text) hrest
  rw [Reading.next?_of_stops hother (stops_nil text) hrest] at hread
  exact congrArg Prod.fst (Option.some.inj hread)

theorem eq_skipped_of_blank {c : Char} {more : List Char} {reading : Reading}
    (h : Lexeme (c :: more) reading) (hc : c ∈ blanks) : reading = .skipped := by
  have hrest : (Cursor.ofText (c :: more)).rest = c :: more ++ [] := (List.append_nil _).symm
  have hread := Reading.next?_of_stops h (stops_nil _) hrest
  rw [Reading.next?_blank hc rfl] at hread
  exact (congrArg Prod.fst (Option.some.inj hread)).symm

/-- Two characters of lookahead tell whether a lexeme is the longest: the scanner
reads the lexeme that stops, it also reads the longest, and it reads only one. -/
theorem isLongest_iff_stops {text rest : List Char} {reading : Reading}
    (h : Lexeme text reading) : IsLongest (text ++ rest) text ↔ Stops text rest := by
  constructor
  · exact IsLongest.stops
  · intro hstops
    have hread := Reading.next?_of_stops (c := .ofText (text ++ rest)) h hstops rfl
    have hne : text ++ rest ≠ [] := by simp [h.ne_nil]
    -- The longest lexeme stops as well, so the scanner reads that one too.
    obtain ⟨longest, hlongest⟩ := exists_isLongest hne
    obtain ⟨reading', hlexeme⟩ := hlongest.isLexeme
    obtain ⟨tail, htail⟩ := hlongest.begins
    have hstops' : Stops longest tail := by
      rw [← htail] at hlongest
      exact hlongest.stops
    have hread' := Reading.next?_of_stops (c := .ofText (text ++ rest)) hlexeme hstops' htail.symm
    rw [hread] at hread'
    have hpast := congrArg Prod.snd (Option.some.inj hread')
    obtain rfl : text = longest := congrArg Cursor.lexeme hpast
    exact hlongest

end Lexeme

namespace Reading

open Lexeme

/-- What one step of the scanner does: it takes a lexeme that stops, and its reading
is what that lexeme stands for. -/
theorem next?_eq_some_iff {c after : Cursor} {reading : Reading} :
    next? c = some (reading, after) ↔
      ∃ text rest, Lexeme text reading ∧ Stops text rest ∧ c.rest = text ++ rest ∧
        after = c.past text rest := by
  constructor
  · intro hread
    have hne : c.rest ≠ [] := by
      intro hnil
      rw [next?_eq_none_iff.2 hnil] at hread
      contradiction
    obtain ⟨text, hlongest⟩ := exists_isLongest hne
    obtain ⟨reading', hlexeme⟩ := hlongest.isLexeme
    obtain ⟨rest, hrest⟩ := hlongest.begins
    rw [← hrest] at hlongest
    rw [next?_of_stops hlexeme hlongest.stops hrest.symm] at hread
    obtain ⟨rfl, rfl⟩ := Prod.mk.inj (Option.some.inj hread)
    exact ⟨text, rest, hlexeme, hlongest.stops, hrest.symm, rfl⟩
  · rintro ⟨text, rest, hlexeme, hstops, hrest, rfl⟩
    exact next?_of_stops hlexeme hstops hrest

end Reading

end ScriptLexer
