import ScriptLexer.Proofs.Rescanning
import Mathlib.Data.List.Basic
import Mathlib.Data.List.Flatten

/-!
Tokens written out with nothing between them. They come back as they were if and only if
none of them runs into those behind it, and whether one does is a matter of kinds: of two
of them next to each other, and of three only where a whole number stands before a point
and another number. One direction is about what a kind goes on with and what the lexemes
of the kinds behind it begin with. The other uses that no character is lost: if the
tokens come back, their lexemes take up the whole script, so nothing was skipped and the
script was cut where it had been put together.
-/

namespace ScriptLexer

namespace Kind

def isWord : Kind → Bool
  | identifier | keyword _ => true
  | _ => false

def isNumber : Kind → Bool
  | integerNumber | number => true
  | _ => false

theorem isNumber_of_isWord {kind : Kind} (h : kind.isWord = true) : kind.isNumber = false := by
  unfold isWord at h
  split at h
  · rfl
  · rfl
  · contradiction

theorem growth_eq_equal_iff {kind : Kind} :
    kind.growth = .equal ↔ kind ∈ [bang, equal, greater, less] := by
  cases kind <;> simp [growth]

theorem growth_eq_comment_iff {kind : Kind} : kind.growth = .comment ↔ kind = slash := by
  cases kind <;> simp [growth]

theorem growth_eq_word_iff {kind : Kind} : kind.growth = .word ↔ kind.isWord = true := by
  cases kind <;> simp [growth, isWord]

theorem growth_eq_digitsOrFraction_iff {kind : Kind} :
    kind.growth = .digitsOrFraction ↔ kind = integerNumber := by
  cases kind <;> simp [growth]

theorem isNumber_iff_growth {kind : Kind} :
    kind.isNumber = true ↔ kind.growth = .digits ∨ kind.growth = .digitsOrFraction := by
  cases kind <;> simp [growth, isNumber]

/-- Kinds of tokens that become others when they are written one behind the other. -/
inductive RunTogether : List Kind → Prop
  | word {first second : Kind} (hfirst : first.isWord = true)
      (hsecond : second.isWord = true ∨ second.isNumber = true) : RunTogether [first, second]
  | number {first second : Kind} (hfirst : first.isNumber = true)
      (hsecond : second.isNumber = true) : RunTogether [first, second]
  | operator {first second : Kind} (hfirst : first ∈ [bang, equal, greater, less])
      (hsecond : second ∈ [equal, equalEqual]) : RunTogether [first, second]
  | comment {second : Kind} (hsecond : second ∈ [slash, star]) : RunTogether [slash, second]
  | fraction {third : Kind} (hthird : third.isNumber = true) :
      RunTogether [integerNumber, dot, third]

end Kind

namespace Lexeme

/-! ### What the lexemes of a kind begin with -/

def punctuation : List (Kind × Char) :=
  [(.leftParen, '('), (.rightParen, ')'), (.leftBrace, '\x7b'), (.rightBrace, '\x7d'),
   (.comma, ','), (.dot, '.'), (.minus, '-'), (.plus, '+'), (.semicolon, ';'), (.star, '*'),
   (.slash, '/'), (.bang, '!'), (.bangEqual, '!'), (.equal, '='), (.equalEqual, '='),
   (.greater, '>'), (.greaterEqual, '>'), (.less, '<'), (.lessEqual, '<')]

theorem mem_punctuation_of_mark {c : Char} {kind : Kind} (hc : c ∈ marks)
    (hkind : Kind.ofMark? c = some kind) : (kind, c) ∈ punctuation := by
  have hall : marks.all (fun c => (Kind.ofMark? c).all fun kind =>
      punctuation.contains (kind, c)) = true := by decide
  simpa [hkind] using List.all_eq_true.1 hall c hc

theorem mem_punctuation_of_operator {c : Char} {pair : Kind.OperatorPair} (hc : c ∈ operators)
    (hpair : Kind.ofOperator? c = some pair) :
    (pair.alone, c) ∈ punctuation ∧ (pair.withEqual, c) ∈ punctuation := by
  have hall : operators.all (fun c => (Kind.ofOperator? c).all fun pair =>
      punctuation.contains (pair.alone, c) && punctuation.contains (pair.withEqual, c)) = true := by
    decide
  simpa [hpair] using List.all_eq_true.1 hall c hc

theorem isWord_wordKind (word : String) : (wordKind word).isWord = true := by
  unfold wordKind
  split <;> rfl

section

variable {text : List Char} {kind : Kind} {literal : Option Literal} {x : Char}

theorem first_of_token (h : Lexeme text (.token kind literal)) (hx : x ∈ text.head?) :
    (kind, x) ∈ punctuation ∨ (kind.isWord = true ∧ IsWordStart x) ∨
      (kind.isNumber = true ∧ x.isDigit = true) ∨ (kind = .string ∧ x ∈ quotes) := by
  cases h with
  | mark hc hkind =>
      obtain rfl : _ = x := Option.some.inj hx
      exact .inl (mem_punctuation_of_mark hc hkind)
  | operator hc hpair =>
      obtain rfl : _ = x := Option.some.inj hx
      exact .inl (mem_punctuation_of_operator hc hpair).1
  | operatorEqual hc hpair =>
      obtain rfl : _ = x := Option.some.inj hx
      exact .inl (mem_punctuation_of_operator hc hpair).2
  | slash =>
      obtain rfl : _ = x := Option.some.inj hx
      exact .inl (by decide)
  | string hquote =>
      obtain rfl : _ = x := Option.some.inj hx
      exact .inr (.inr (.inr ⟨rfl, hquote⟩))
  | integer hdigits => exact .inr (.inr (.inl ⟨rfl, hdigits.2 x (List.mem_of_mem_head? hx)⟩))
  | decimal hwhole =>
      rw [List.head?_append_of_ne_nil _ hwhole.1] at hx
      exact .inr (.inr (.inl ⟨rfl, hwhole.2 x (List.mem_of_mem_head? hx)⟩))
  | word hfirst =>
      obtain rfl : _ = x := Option.some.inj hx
      exact .inr (.inl ⟨isWord_wordKind _, hfirst⟩)

theorem isDigit_first (h : Lexeme text (.token kind literal)) (hx : x ∈ text.head?) :
    x.isDigit = kind.isNumber := by
  rcases first_of_token h hx with hmem | ⟨hkind, hstart⟩ | ⟨hkind, hdigit⟩ | ⟨rfl, hquote⟩
  · have hall : punctuation.all (fun p => p.2.isDigit == p.1.isNumber) = true := by decide
    simpa using List.all_eq_true.1 hall _ hmem
  · rw [Reading.isDigit_eq_false_of_isWordStart hstart, Kind.isNumber_of_isWord hkind]
  · rw [hdigit, hkind]
  · have hall : quotes.all (fun q => !q.isDigit) = true := by decide
    simpa [Kind.isNumber] using List.all_eq_true.1 hall x hquote

theorem isWordPart_of_isDigit (h : x.isDigit = true) : IsWordPart x :=
  .inr (by simpa [Char.isDigit, Char.le_def] using h)

theorem isWordPart_first (h : Lexeme text (.token kind literal)) (hx : x ∈ text.head?) :
    IsWordPart x ↔ kind.isWord = true ∨ kind.isNumber = true := by
  rcases first_of_token h hx with hmem | ⟨hkind, hstart⟩ | ⟨hkind, hdigit⟩ | ⟨rfl, hquote⟩
  · have hall : punctuation.all (fun p =>
        decide (IsWordPart p.2) == (p.1.isWord || p.1.isNumber)) = true := by decide
    have hentry := eq_of_beq (List.all_eq_true.1 hall _ hmem)
    rw [← decide_eq_true_iff (p := IsWordPart x), hentry, Bool.or_eq_true]
  · exact iff_of_true (.inl hstart) (.inl hkind)
  · exact iff_of_true (isWordPart_of_isDigit hdigit) (.inr hkind)
  · have hall : quotes.all (fun q => !decide (IsWordPart q)) = true := by decide
    simpa [Kind.isWord, Kind.isNumber] using List.all_eq_true.1 hall x hquote

/-- Kinds that are the only ones to begin with a character `c`, and always do. -/
def AreBegunBy (kinds : List Kind) (c : Char) : Bool :=
  punctuation.all (fun p => (p.2 == c) == kinds.contains p.1) &&
    !decide (IsWordPart c) && !quotes.contains c &&
    kinds.all fun kind => !kind.isWord && !kind.isNumber && kind != .string

theorem first_eq_iff {kinds : List Kind} {c : Char} (hkinds : AreBegunBy kinds c = true)
    (h : Lexeme text (.token kind literal)) (hx : x ∈ text.head?) : x = c ↔ kind ∈ kinds := by
  simp only [AreBegunBy, Bool.and_eq_true, List.all_eq_true, Bool.not_eq_true',
    decide_eq_false_iff_not, bne_iff_ne] at hkinds
  obtain ⟨⟨⟨hpunctuation, hpart⟩, hnoquote⟩, hothers⟩ := hkinds
  rcases first_of_token h hx with hmem | ⟨hkind, hstart⟩ | ⟨hkind, hdigit⟩ | ⟨rfl, hquote⟩
  · have hentry : (x == c) = decide (kind ∈ kinds) := by simpa using hpunctuation _ hmem
    rw [← beq_iff_eq, hentry, decide_eq_true_iff]
  · refine iff_of_false ?_ fun hmem => ?_
    · rintro rfl
      exact hpart (.inl hstart)
    · rw [(hothers kind hmem).1.1] at hkind
      contradiction
  · refine iff_of_false ?_ fun hmem => ?_
    · rintro rfl
      exact hpart (isWordPart_of_isDigit hdigit)
    · rw [(hothers kind hmem).1.2] at hkind
      contradiction
  · refine iff_of_false ?_ fun hmem => (hothers _ hmem).2 rfl
    rintro rfl
    simp [hquote] at hnoquote

end

theorem eq_nil_of_mark {c : Char} {more : List Char} {reading : Reading} (hc : c ∈ marks)
    (h : Lexeme (c :: more) reading) : more = [] := by
  obtain ⟨kind, hkind⟩ := exists_ofMark? hc
  have hlongest := (isLongest_iff_stops (.mark hc hkind)).2 (stops_mark hc more)
  have hle := hlongest.length_le _ _ h List.prefix_rfl
  simpa using hle

end Lexeme

namespace Scan

/-! ### Tokens one behind the other -/

section

variable {ts : List Token}

theorem head?_textOf_ofToken {t : Token} (ht : t.Occurs) (ts : List Token) :
    (textOf ((t :: ts).map .ofToken)).head? = t.lexeme.toList.head? := by
  rw [List.map_cons, textOf_cons]
  exact List.head?_append_of_ne_nil _ (lexeme_of_occurs ht).ne_nil

/-- Where a token begins with a certain character exactly if it is of a certain kind, so
does a text of tokens, and its first token counts. -/
theorem exists_head?_iff {P : Char → Prop} {Q : Kind → Prop} (hts : ∀ t ∈ ts, t.Occurs)
    (hfirst : ∀ t ∈ ts, ∀ x ∈ t.lexeme.toList.head?, P x ↔ Q t.kind) :
    (∃ x ∈ (textOf (ts.map .ofToken)).head?, P x) ↔ ∃ kind ∈ (ts.map Token.kind).head?, Q kind := by
  cases ts with
  | nil => simp
  | cons t ts =>
      have ht := hts t List.mem_cons_self
      obtain ⟨x, more, hx⟩ := List.exists_cons_of_ne_nil (lexeme_of_occurs ht).ne_nil
      rw [head?_textOf_ofToken ht, hx]
      simpa using hfirst t List.mem_cons_self x (by simp [hx])

theorem wordPart_head?_iff (hts : ∀ t ∈ ts, t.Occurs) :
    (∃ x ∈ (textOf (ts.map .ofToken)).head?, Lexeme.IsWordPart x) ↔
      ∃ kind ∈ (ts.map Token.kind).head?, kind.isWord = true ∨ kind.isNumber = true := by
  refine exists_head?_iff hts fun t ht x hx => ?_
  exact Lexeme.isWordPart_first (lexeme_of_occurs (hts t ht)) hx

theorem isDigit_head?_iff (hts : ∀ t ∈ ts, t.Occurs) :
    (∃ x ∈ (textOf (ts.map .ofToken)).head?, x.isDigit = true) ↔
      ∃ kind ∈ (ts.map Token.kind).head?, kind.isNumber = true := by
  refine exists_head?_iff hts fun t ht x hx => ?_
  rw [Lexeme.isDigit_first (lexeme_of_occurs (hts t ht)) hx]

theorem mem_head?_iff {kinds : List Kind} {c : Char} (hkinds : Lexeme.AreBegunBy kinds c = true)
    (hts : ∀ t ∈ ts, t.Occurs) :
    c ∈ (textOf (ts.map .ofToken)).head? ↔ ∃ kind ∈ (ts.map Token.kind).head?, kind ∈ kinds := by
  rw [← exists_head?_iff (P := (· = c)) hts
    fun t ht x hx => Lexeme.first_eq_iff hkinds (lexeme_of_occurs (hts t ht)) hx]
  simp

theorem lexeme_eq_point_iff {t : Token} (ht : t.Occurs) :
    t.kind = .dot ↔ t.lexeme.toList = ['.'] := by
  have hlexeme := lexeme_of_occurs ht
  obtain ⟨x, more, hx⟩ := List.exists_cons_of_ne_nil hlexeme.ne_nil
  rw [hx] at hlexeme
  have hfirst : x = '.' ↔ t.kind ∈ [Kind.dot] := Lexeme.first_eq_iff (by decide) hlexeme rfl
  rw [hx, ← List.mem_singleton, ← hfirst]
  constructor
  · rintro rfl
    rw [Lexeme.eq_nil_of_mark (by decide) hlexeme]
  · intro heq
    exact (List.cons.inj heq).1

theorem fraction_iff (hts : ∀ t ∈ ts, t.Occurs) :
    (∃ x more, textOf (ts.map .ofToken) = '.' :: x :: more ∧ x.isDigit = true) ↔
      ∃ third more, ts.map Token.kind = .dot :: third :: more ∧ third.isNumber = true := by
  cases ts with
  | nil => simp
  | cons t ts =>
      obtain ⟨ht, hts⟩ := List.forall_mem_cons.1 hts
      have hdigit := isDigit_head?_iff hts
      constructor
      · rintro ⟨x, more, htext, hx⟩
        have hfirst : '.' ∈ t.lexeme.toList.head? := by
          rw [← head?_textOf_ofToken ht ts, htext]
          rfl
        have hkind : t.kind ∈ [Kind.dot] :=
          (Lexeme.first_eq_iff (by decide) (lexeme_of_occurs ht) hfirst).1 rfl
        have hpoint := (lexeme_eq_point_iff ht).1 (List.mem_singleton.1 hkind)
        have hrest : textOf (ts.map .ofToken) = x :: more := by
          simpa [Piece.ofToken, hpoint] using htext
        obtain ⟨third, hthird, hnumber⟩ := hdigit.1 ⟨x, by simp [hrest], hx⟩
        obtain ⟨others, hothers⟩ := List.head?_eq_some_iff.1 hthird
        exact ⟨third, others, by rw [List.map_cons, hothers, List.mem_singleton.1 hkind], hnumber⟩
      · rintro ⟨third, more, hkinds, hnumber⟩
        obtain ⟨hkind, hrest⟩ := List.cons.inj hkinds
        obtain ⟨x, hx, hxdigit⟩ := hdigit.2 ⟨third, by simp [hrest], hnumber⟩
        obtain ⟨others, hothers⟩ := List.head?_eq_some_iff.1 hx
        refine ⟨x, others, ?_, hxdigit⟩
        rw [List.map_cons, textOf_cons, hothers, Piece.ofToken, (lexeme_eq_point_iff ht).1 hkind]
        rfl

/-! ### What runs together -/

theorem pair_prefix_cons_iff {α : Type} {a b c : α} {l : List α} :
    [a, b] <+: c :: l ↔ a = c ∧ b ∈ l.head? := by
  cases l <;> simp [List.cons_prefix_cons, eq_comm]

theorem goesOn_iff (kind : Kind) (hts : ∀ t ∈ ts, t.Occurs) :
    kind.growth.GoesOn (textOf (ts.map .ofToken)) ↔
      ∃ kinds, Kind.RunTogether kinds ∧ kinds <+: kind :: ts.map Token.kind := by
  have hbegins : Lexeme.AreBegunBy [.equal, .equalEqual] '=' = true ∧
      Lexeme.AreBegunBy [.slash] '/' = true ∧ Lexeme.AreBegunBy [.star] '*' = true := by decide
  have hequal := mem_head?_iff hbegins.1 hts
  have hslash := mem_head?_iff hbegins.2.1 hts
  have hstar := mem_head?_iff hbegins.2.2 hts
  have hword := wordPart_head?_iff hts
  have hdigit := isDigit_head?_iff hts
  have hfraction := fraction_iff hts
  constructor
  · intro hgoes
    cases hgrowth : kind.growth <;> rw [hgrowth] at hgoes
    case nothing => contradiction
    case equal =>
      obtain ⟨second, hsecond, hmem⟩ := hequal.1 hgoes
      exact ⟨_, .operator (Kind.growth_eq_equal_iff.1 hgrowth) hmem,
        pair_prefix_cons_iff.2 ⟨rfl, hsecond⟩⟩
    case comment =>
      obtain rfl := Kind.growth_eq_comment_iff.1 hgrowth
      obtain ⟨second, hsecond, hmem⟩ :
          ∃ second ∈ (ts.map Token.kind).head?, second ∈ [Kind.slash, .star] := by
        rcases hgoes with hline | hblock
        · obtain ⟨second, hsecond, hmem⟩ := hslash.1 hline
          exact ⟨second, hsecond, List.mem_pair.2 (.inl (List.mem_singleton.1 hmem))⟩
        · obtain ⟨second, hsecond, hmem⟩ := hstar.1 hblock
          exact ⟨second, hsecond, List.mem_pair.2 (.inr (List.mem_singleton.1 hmem))⟩
      exact ⟨_, .comment hmem, pair_prefix_cons_iff.2 ⟨rfl, hsecond⟩⟩
    case word =>
      obtain ⟨second, hsecond, hkind⟩ := hword.1 hgoes
      exact ⟨_, .word (Kind.growth_eq_word_iff.1 hgrowth) hkind,
        pair_prefix_cons_iff.2 ⟨rfl, hsecond⟩⟩
    case digits =>
      obtain ⟨second, hsecond, hnumber⟩ := hdigit.1 hgoes
      exact ⟨_, .number (Kind.isNumber_iff_growth.2 (.inl hgrowth)) hnumber,
        pair_prefix_cons_iff.2 ⟨rfl, hsecond⟩⟩
    case digitsOrFraction =>
      rcases hgoes with hgoes | hgoes
      · obtain ⟨second, hsecond, hnumber⟩ := hdigit.1 hgoes
        exact ⟨_, .number (Kind.isNumber_iff_growth.2 (.inr hgrowth)) hnumber,
          pair_prefix_cons_iff.2 ⟨rfl, hsecond⟩⟩
      · obtain ⟨third, more, hkinds, hnumber⟩ := hfraction.1 hgoes
        refine ⟨_, .fraction hnumber, more, ?_⟩
        rw [Kind.growth_eq_digitsOrFraction_iff.1 hgrowth, hkinds]
        rfl
  · rintro ⟨kinds, hruns, hprefix⟩
    cases hruns with
    | word hfirst hsecond =>
        obtain ⟨rfl, hmem⟩ := pair_prefix_cons_iff.1 hprefix
        rw [Kind.growth_eq_word_iff.2 hfirst]
        exact hword.2 ⟨_, hmem, hsecond⟩
    | number hfirst hsecond =>
        obtain ⟨rfl, hmem⟩ := pair_prefix_cons_iff.1 hprefix
        have hdigits := hdigit.2 ⟨_, hmem, hsecond⟩
        rcases Kind.isNumber_iff_growth.1 hfirst with hgrowth | hgrowth <;> rw [hgrowth]
        · exact hdigits
        · exact .inl hdigits
    | operator hfirst hsecond =>
        obtain ⟨rfl, hmem⟩ := pair_prefix_cons_iff.1 hprefix
        rw [Kind.growth_eq_equal_iff.2 hfirst]
        exact hequal.2 ⟨_, hmem, hsecond⟩
    | comment hsecond =>
        obtain ⟨rfl, hmem⟩ := pair_prefix_cons_iff.1 hprefix
        rcases List.mem_pair.1 hsecond with rfl | rfl
        · exact .inl (hslash.2 ⟨_, hmem, List.mem_singleton_self _⟩)
        · exact .inr (hstar.2 ⟨_, hmem, List.mem_singleton_self _⟩)
    | fraction hthird =>
        obtain ⟨more, hkinds⟩ := hprefix
        obtain ⟨rfl, hrest⟩ := List.cons.inj hkinds
        exact .inr (hfraction.2 ⟨_, more, hrest.symm, hthird⟩)

end

/-- Tokens come apart where they were put together exactly if no kinds among them run
together. -/
theorem isCut_ofToken_iff {ts : List Token} (hts : ∀ t ∈ ts, t.Occurs) :
    IsCut (ts.map .ofToken) ↔
      ∀ kinds, Kind.RunTogether kinds → ¬ kinds <:+: ts.map Token.kind := by
  induction ts with
  | nil =>
      refine iff_of_true .nil fun kinds hruns hinfix => ?_
      rw [List.map_nil, List.infix_nil] at hinfix
      subst hinfix
      contradiction
  | cons t ts ih =>
      obtain ⟨ht, hts⟩ := List.forall_mem_cons.1 hts
      have hstops : Lexeme.Stops t.lexeme.toList (textOf (ts.map .ofToken)) ↔
          ∀ kinds, Kind.RunTogether kinds → ¬ kinds <+: t.kind :: ts.map Token.kind := by
        rw [Lexeme.stops_token_iff (lexeme_of_occurs ht), goesOn_iff t.kind hts]
        simp
      constructor
      · intro h kinds hruns hinfix
        cases h with
        | cons _ hstops' hrest =>
            rcases List.infix_cons_iff.1 hinfix with hprefix | hinfix
            · exact hstops.1 hstops' kinds hruns hprefix
            · exact (ih hts).1 hrest kinds hruns hinfix
      · intro h
        refine .cons (lexeme_of_occurs ht) (hstops.2 ?_) ((ih hts).2 ?_)
        · exact fun kinds hruns hprefix => h kinds hruns hprefix.isInfix
        · exact fun kinds hruns hinfix => h kinds hruns (List.infix_cons hinfix)

/-! ### Tokens that come back -/

theorem textOf_map_ofToken (ts : List Token) :
    textOf (ts.map .ofToken) = (String.join (ts.map Token.lexeme)).toList := by
  rw [String.toList_join]
  induction ts with
  | nil => rfl
  | cons t ts ih => simp [ih, Piece.ofToken]

theorem eq_of_sublist {ps qs : List Piece} (h : qs.Sublist ps) (hne : ∀ p ∈ ps, p.text ≠ [])
    (hle : (textOf ps).length ≤ (textOf qs).length) : qs = ps := by
  induction h with
  | slnil => rfl
  | @cons qs ps p h ih =>
      have hlength : (textOf qs).length ≤ (textOf ps).length := (h.flatMap Piece.text).length_le
      have hpos := List.length_pos_iff.2 (hne p List.mem_cons_self)
      rw [textOf_cons, List.length_append] at hle
      omega
  | @cons_cons qs ps p h ih =>
      rw [textOf_cons, textOf_cons, List.length_append, List.length_append] at hle
      rw [ih (fun q hq => hne q (List.mem_cons_of_mem _ hq)) (by omega)]

theorem Piece.text_of_content? {p : Piece} {content : Kind × String × Option Literal}
    (h : p.content? = some content) : content.2.1.toList = p.text := by
  obtain ⟨text, reading⟩ := p
  cases reading with
  | skipped => contradiction
  | fault => contradiction
  | token kind literal =>
      obtain rfl := Option.some.inj h
      exact String.toList_ofList

theorem map_text_filter (ps : List Piece) :
    (ps.filter (·.content?.isSome)).map Piece.text =
      (ps.filterMap Piece.content?).map (·.2.1.toList) := by
  induction ps with
  | nil => rfl
  | cons p ps ih =>
      cases hp : p.content? with
      | none => simp [hp, ih]
      | some content => simp [hp, ih, Piece.text_of_content? hp]

theorem eq_of_map_text_eq {ps qs : List Piece} (hps : ∀ p ∈ ps, Lexeme p.text p.reading)
    (hqs : ∀ q ∈ qs, Lexeme q.text q.reading) (h : ps.map Piece.text = qs.map Piece.text) :
    ps = qs := by
  induction ps generalizing qs with
  | nil => exact (List.map_eq_nil_iff.1 h.symm).symm
  | cons p ps ih =>
      obtain ⟨q, qs, rfl⟩ : ∃ q qs', qs = q :: qs' := by
        cases qs with
        | nil => contradiction
        | cons q qs => exact ⟨q, qs, rfl⟩
      obtain ⟨hp, hps⟩ := List.forall_mem_cons.1 hps
      obtain ⟨hq, hqs⟩ := List.forall_mem_cons.1 hqs
      obtain ⟨htext, hrest⟩ := List.cons.inj h
      rw [ih hps hqs hrest]
      obtain ⟨text, reading⟩ := p
      obtain ⟨text', reading'⟩ := q
      obtain rfl : text = text' := htext
      obtain rfl : reading' = reading := hp.unique hq
      rfl

/-- If the lexemes of the tokens in a script are those that it was put together from, it
is cut where it was put together: they leave no room for anything else. -/
theorem eq_map_ofToken {ps : List Piece} {ts : List Token} (h : IsCut ps)
    (hts : ∀ t ∈ ts, t.Occurs) (htext : textOf ps = textOf (ts.map .ofToken))
    (hlexemes : (ps.filterMap Piece.content?).map (·.2.1) = ts.map Token.lexeme) :
    ps = ts.map .ofToken := by
  have hfilter : (ps.filter (·.content?.isSome)).map Piece.text =
      (ts.map Piece.ofToken).map Piece.text := by
    have hlists := congrArg (List.map String.toList) hlexemes
    rw [map_text_filter]
    simpa [Piece.ofToken, Function.comp_def] using hlists
  have hfilterText : textOf (ps.filter (·.content?.isSome)) = textOf ps := by
    rw [htext, textOf, textOf, List.flatMap_def, List.flatMap_def, hfilter]
  have hall : ps.filter (·.content?.isSome) = ps :=
    eq_of_sublist List.filter_sublist (fun p hp => (h.lexeme hp).ne_nil)
      (Nat.le_of_eq (congrArg List.length hfilterText.symm))
  rw [hall] at hfilter
  refine eq_of_map_text_eq (fun p hp => h.lexeme hp) ?_ hfilter
  intro q hq
  obtain ⟨t, ht, rfl⟩ := List.mem_map.1 hq
  exact lexeme_of_occurs (hts t ht)

/-- Tokens of any scripts, written out with nothing between them and scanned again, come
back as they were exactly if no kinds among them run together. -/
theorem scan_join_iff (ts : List Token) (hts : ∀ t ∈ ts, t.Occurs) :
    ((scan (String.join (ts.map Token.lexeme))).faults = [] ∧
        (scan (String.join (ts.map Token.lexeme))).tokens.map (fun t => (t.kind, t.lexeme)) =
          ts.map (fun t => (t.kind, t.lexeme)) ++ [(.endOfText, "")]) ↔
      ∀ kinds, Kind.RunTogether kinds → ¬ kinds <:+: ts.map Token.kind := by
  rw [← isCut_ofToken_iff hts, scan, ← textOf_map_ofToken]
  constructor
  · rintro ⟨-, htokens⟩
    obtain ⟨ps, hps, htext⟩ := exists_isCut (textOf (ts.map .ofToken))
    have hcontent := congrArg (List.map (·.2.1)) (content_ofText hps)
    have hlexemes := congrArg (List.map Prod.snd) htokens
    rw [htext] at hcontent
    simp only [List.map_map, List.map_append, Function.comp_def, Token.content] at hcontent hlexemes
    rw [hcontent] at hlexemes
    rw [← eq_map_ofToken hps hts htext (List.append_inj_left' hlexemes rfl)]
    exact hps
  · intro hcut
    refine ⟨(faults_ofText_eq_nil_iff hcut).2 ?_, ?_⟩
    · intro p hp kind
      obtain ⟨t, _, rfl⟩ := List.mem_map.1 hp
      simp [Piece.ofToken]
    · have hcontent := congrArg (List.map fun c => (c.1, c.2.1)) (content_ofText hcut)
      simpa [Function.comp_def, Token.content] using hcontent

/-- A point keeps a decimal number and a whole one apart, as `1.2.3`; it would join two
whole ones. -/
theorem scan_join_decimal_point :
    let decimal : Token := ⟨.number, "1.2", some (.float ⟨0x3FF3333333333333⟩), 1, ⟨0, 3⟩⟩
    let point : Token := ⟨.dot, ".", none, 1, ⟨4, 1⟩⟩
    let whole : Token := ⟨.integerNumber, "3", some (.integer 3), 1, ⟨6, 1⟩⟩
    let ts := [decimal, point, whole]
    (∀ t ∈ ts, t.Occurs) ∧
      (((scan (String.join (ts.map Token.lexeme))).faults = [] ∧
          (scan (String.join (ts.map Token.lexeme))).tokens.map (fun t => (t.kind, t.lexeme)) =
            ts.map (fun t => (t.kind, t.lexeme)) ++ [(.endOfText, "")]) ↔
        ∀ kinds, Kind.RunTogether kinds → ¬ kinds <:+: ts.map Token.kind) := by
  intro decimal point whole ts
  have hdecimal : decimal.Occurs := ⟨"1.2 . 3", by decide +kernel⟩
  have hpoint : point.Occurs := ⟨"1.2 . 3", by decide +kernel⟩
  have hwhole : whole.Occurs := ⟨"1.2 . 3", by decide +kernel⟩
  have hts : ∀ t ∈ ts, t.Occurs := by simp [ts, hdecimal, hpoint, hwhole]
  exact ⟨hts, scan_join_iff ts hts⟩

end Scan

end ScriptLexer
