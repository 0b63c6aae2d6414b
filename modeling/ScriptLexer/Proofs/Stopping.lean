import ScriptLexer.Proofs.LongestMatch
import Mathlib.Data.List.Induction

/-!
What a lexeme stops at. That nothing longer begins with a lexeme is a statement about
all lexemes; here it becomes one about the next character or two, class by class. One
direction of each is that a longer lexeme could be written down, the other that the
scanner, reading on under the same condition, stops in the same place. What a token
stops at depends on its kind alone.

The second part asks how much of the rest has to be known. A lexeme without its last
character is still a lexeme, unless it then ends in a point; so what a lexeme stops at
is settled by one character, and by two only if the first of them is a point.
-/

namespace ScriptLexer

namespace Lexeme

/-! ### Class by class -/

theorem stops_of_next? {text rest : List Char} {reading : Reading}
    (h : Reading.next? (.ofText (text ++ rest)) =
      some (reading, (Cursor.ofText (text ++ rest)).past text rest)) : Stops text rest := by
  obtain ⟨text', rest', _, hstops, hrest, hpast⟩ := Reading.next?_eq_some_iff.1 h
  obtain rfl : text = text' := congrArg Cursor.lexeme hpast
  obtain rfl : rest = rest' := List.append_cancel_left hrest
  exact hstops

section

variable {rest : List Char}

theorem stops_mark {c : Char} (hc : c ∈ marks) (rest : List Char) : Stops [c] rest := by
  obtain ⟨kind, hkind⟩ := exists_ofMark? hc
  exact stops_of_next? (Reading.next?_mark hc hkind rfl)

theorem stops_operator_iff {c : Char} (hc : c ∈ operators) :
    Stops [c] rest ↔ '=' ∉ rest.head? := by
  obtain ⟨pair, hpair⟩ := exists_ofOperator? hc
  constructor
  · intro h
    exact h.equal_not_mem_head? hc
  · intro h
    exact stops_of_next? (Reading.next?_operator hc hpair rfl h)

theorem stops_operatorEqual {c : Char} (hc : c ∈ operators) (rest : List Char) :
    Stops [c, '='] rest := by
  obtain ⟨pair, hpair⟩ := exists_ofOperator? hc
  exact stops_of_next? (Reading.next?_operatorEqual hc hpair rfl)

theorem stops_slash_iff : Stops ['/'] rest ↔ '/' ∉ rest.head? ∧ '*' ∉ rest.head? := by
  constructor
  · intro h
    exact h.slash_star_not_mem_head?
  · rintro ⟨hline, hblock⟩
    exact stops_of_next? (Reading.next?_slash rfl hline hblock)

theorem stops_blockComment {body : List Char} (hbody : ClosedBy commentEnd body)
    (rest : List Char) : Stops ('/' :: '*' :: (body ++ commentEnd)) rest :=
  stops_of_next? (Reading.next?_blockComment hbody rfl)

theorem stops_string {quote : Char} {body : List Char} (hquote : quote ∈ quotes)
    (hbody : quote ∉ body) (rest : List Char) : Stops (quote :: (body ++ [quote])) rest := by
  refine stops_of_next? (Reading.next?_string hquote hbody ?_)
  simp [Cursor.ofText]

theorem stops_integer_iff {digits : List Char} (hdigits : Digits digits) :
    Stops digits rest ↔ (∀ x ∈ rest.head?, x.isDigit = false) ∧
      ∀ x more, rest = '.' :: x :: more → x.isDigit = false := by
  constructor
  · intro h
    exact ⟨h.not_isDigit hdigits, h.not_isDigit_of_point hdigits⟩
  · rintro ⟨hrest, hpoint⟩
    exact stops_of_next? (Reading.next?_integer hdigits rfl hrest hpoint)

theorem stops_decimal_iff {whole fraction : List Char} (hwhole : Digits whole)
    (hfraction : Digits fraction) :
    Stops (whole ++ '.' :: fraction) rest ↔ ∀ x ∈ rest.head?, x.isDigit = false := by
  constructor
  · intro h
    exact h.not_isDigit_of_decimal hwhole hfraction
  · intro h
    refine stops_of_next? (Reading.next?_decimal hwhole hfraction ?_ h)
    simp [Cursor.ofText]

theorem stops_word_iff {first : Char} {more : List Char} (hfirst : IsWordStart first)
    (hmore : ∀ c ∈ more, IsWordPart c) :
    Stops (first :: more) rest ↔ ∀ x ∈ rest.head?, ¬ IsWordPart x := by
  constructor
  · intro h
    exact h.not_isWordPart hfirst hmore
  · intro h
    exact stops_of_next? (Reading.next?_word hfirst hmore rfl h)

theorem stops_blank {c : Char} (hc : c ∈ blanks) (rest : List Char) : Stops [c] rest :=
  stops_of_next? (Reading.next?_blank hc rfl)

end

/-! ### Tokens, by kind -/

inductive Growth where
  | nothing | equal | comment | word | digits | digitsOrFraction
  deriving DecidableEq

end Lexeme

def Kind.growth : Kind → Lexeme.Growth
  | bang | equal | greater | less => .equal
  | slash => .comment
  | identifier | keyword _ => .word
  | number => .digits
  | integerNumber => .digitsOrFraction
  | _ => .nothing

namespace Lexeme

/-- The rest of a script begins with something that makes the token before it longer. -/
def Growth.GoesOn : Growth → List Char → Prop
  | nothing, _ => False
  | equal, rest => '=' ∈ rest.head?
  | comment, rest => '/' ∈ rest.head? ∨ '*' ∈ rest.head?
  | word, rest => ∃ x ∈ rest.head?, IsWordPart x
  | digits, rest => ∃ x ∈ rest.head?, x.isDigit = true
  | digitsOrFraction, rest => (∃ x ∈ rest.head?, x.isDigit = true) ∨
      ∃ x more, rest = '.' :: x :: more ∧ x.isDigit = true

theorem growth_ofMark {c : Char} {kind : Kind} (hc : c ∈ marks)
    (hkind : Kind.ofMark? c = some kind) : kind.growth = .nothing := by
  have hall : marks.all (fun c => (Kind.ofMark? c).all (·.growth == .nothing)) = true := by decide
  simpa [hkind] using List.all_eq_true.1 hall c hc

theorem growth_ofOperator {c : Char} {pair : Kind.OperatorPair} (hc : c ∈ operators)
    (hpair : Kind.ofOperator? c = some pair) :
    pair.alone.growth = .equal ∧ pair.withEqual.growth = .nothing := by
  have hall : operators.all (fun c => (Kind.ofOperator? c).all fun pair =>
      pair.alone.growth == .equal && pair.withEqual.growth == .nothing) = true := by decide
  simpa [hpair] using List.all_eq_true.1 hall c hc

theorem growth_wordKind (word : String) : (wordKind word).growth = .word := by
  unfold wordKind
  split <;> rfl

theorem stops_token_iff {text rest : List Char} {kind : Kind} {literal : Option Literal}
    (h : Lexeme text (.token kind literal)) : Stops text rest ↔ ¬ kind.growth.GoesOn rest := by
  cases h with
  | mark hc hkind =>
      rw [growth_ofMark hc hkind]
      exact iff_of_true (stops_mark hc rest) id
  | operator hc hpair =>
      rw [(growth_ofOperator hc hpair).1]
      exact stops_operator_iff hc
  | operatorEqual hc hpair =>
      rw [(growth_ofOperator hc hpair).2]
      exact iff_of_true (stops_operatorEqual hc rest) id
  | slash =>
      rw [stops_slash_iff, ← not_or]
      rfl
  | string hquote hbody => exact iff_of_true (stops_string hquote hbody rest) id
  | integer hdigits _ =>
      rw [stops_integer_iff hdigits]
      simp [Kind.growth, Growth.GoesOn]
  | decimal hwhole hfraction _ =>
      rw [stops_decimal_iff hwhole hfraction]
      simp [Kind.growth, Growth.GoesOn]
  | word hfirst hmore =>
      rw [growth_wordKind, stops_word_iff hfirst hmore]
      simp [Growth.GoesOn]

/-! ### How much of the rest has to be known -/

theorem Digits.dropLast {digits : List Char} (h : Digits digits) (hne : digits.dropLast ≠ []) :
    Digits digits.dropLast :=
  ⟨hne, fun c hc => h.2 c (List.dropLast_subset _ hc)⟩

theorem not_infix_append_star {body : List Char} (h : ¬ commentEnd <:+: body) :
    ¬ commentEnd <:+: body ++ ['*'] := by
  rintro ⟨before, after, hbody⟩
  obtain rfl := eq_nil_of_append_singleton h hbody.symm
  rw [List.append_nil, show commentEnd = ['*'] ++ ['/'] from rfl, ← List.append_assoc] at hbody
  simpa using List.append_inj_right' hbody rfl

/-- A comment that holds no mark is closed by the first one, even if it ends in a star
or consists of a slash. -/
theorem closedBy_iff {body : List Char} :
    ClosedBy commentEnd body ↔ ¬ commentEnd <:+: body := by
  constructor
  · rintro h ⟨before, after, rfl⟩
    simpa [commentEnd] using h before (after ++ commentEnd) (List.append_assoc ..)
  · intro h before after heq
    have hlonger : body ++ ['*'] ++ ['/'] = before ++ commentEnd ++ after := by
      rw [← heq, List.append_assoc]
      rfl
    exact eq_nil_of_append_singleton (not_infix_append_star h) hlonger

theorem dropLast_cons_append_singleton (first last : Char) (body : List Char) :
    (first :: (body ++ [last])).dropLast = first :: body := by
  rw [← List.cons_append, List.dropLast_concat]

theorem exists_dropLast_decimal {whole fraction : List Char} (hwhole : Digits whole)
    (hfraction : Digits fraction)
    (hpoint : '.' ∈ (whole ++ '.' :: fraction).dropLast.getLast? →
      ∃ x ∈ (whole ++ '.' :: fraction).getLast?, x.isDigit = false) :
    ∃ reading, Lexeme (whole ++ '.' :: fraction).dropLast reading := by
  have hdrop : (whole ++ '.' :: fraction).dropLast = whole ++ '.' :: fraction.dropLast := by
    rw [List.dropLast_append_cons, List.dropLast_cons_of_ne_nil hfraction.1]
  have hne : fraction.dropLast ≠ [] := by
    intro hnil
    obtain ⟨x, hx, hdigit⟩ := hpoint (by rw [hdrop, hnil]; simp)
    have hlast : x ∈ fraction.getLast? := by
      simpa [List.getLast?_append, List.getLast?_cons,
        List.getLast?_eq_some_getLast hfraction.1] using hx
    rw [hfraction.2 x (List.mem_of_getLast? hlast)] at hdigit
    contradiction
  rw [hdrop]
  exact ⟨_, ofDecimal hwhole (hfraction.dropLast hne)⟩

/-- A lexeme without its last character is a lexeme, unless a point is then the last and
a digit stood behind it. -/
theorem exists_dropLast {text : List Char} {reading : Reading} (h : Lexeme text reading)
    (hne : text.dropLast ≠ [])
    (hpoint : '.' ∈ text.dropLast.getLast? → ∃ x ∈ text.getLast?, x.isDigit = false) :
    ∃ reading, Lexeme text.dropLast reading := by
  cases h with
  | mark | operator | slash | blank | stray => exact absurd rfl hne
  | operatorEqual hc hpair => exact ⟨_, .operator hc hpair⟩
  | @lineComment body hbody =>
      cases body using List.reverseRecOn with
      | nil => exact ⟨_, .slash⟩
      | append_singleton body last =>
          have hshorter : '\n' ∉ body := fun h => hbody (List.mem_append_left _ h)
          rw [← List.cons_append, dropLast_cons_append_singleton]
          exact ⟨_, .lineComment hshorter⟩
  | blockComment hbody =>
      rw [← List.cons_append, ← List.cons_append, List.dropLast_append_of_ne_nil (by decide)]
      exact ⟨_, .openComment (not_infix_append_star (closedBy_iff.1 hbody))⟩
  | @openComment body hbody =>
      cases body using List.reverseRecOn with
      | nil => exact ⟨_, .slash⟩
      | append_singleton body last =>
          have hshorter : ¬ commentEnd <:+: body :=
            fun h => hbody (h.trans (List.prefix_append ..).isInfix)
          rw [← List.cons_append, dropLast_cons_append_singleton]
          exact ⟨_, .openComment hshorter⟩
  | string hquote hbody =>
      rw [dropLast_cons_append_singleton]
      exact ⟨_, .openString hquote hbody⟩
  | @openString quote body hquote hbody =>
      cases body using List.reverseRecOn with
      | nil => exact absurd rfl hne
      | append_singleton body last =>
          have hshorter : quote ∉ body := fun h => hbody (List.mem_append_left _ h)
          rw [dropLast_cons_append_singleton]
          exact ⟨_, .openString hquote hshorter⟩
  | integer hdigits => exact ⟨_, ofInteger (hdigits.dropLast hne)⟩
  | greatInteger hdigits => exact ⟨_, ofInteger (hdigits.dropLast hne)⟩
  | decimal hwhole hfraction => exact exists_dropLast_decimal hwhole hfraction hpoint
  | greatDecimal hwhole hfraction => exact exists_dropLast_decimal hwhole hfraction hpoint
  | @word first more hfirst hmore =>
      cases more using List.reverseRecOn with
      | nil => exact absurd rfl hne
      | append_singleton more last =>
          have hshorter : ∀ c ∈ more, IsWordPart c :=
            fun c hc => hmore c (List.mem_append_left _ hc)
          rw [dropLast_cons_append_singleton]
          exact ⟨_, .word hfirst hshorter⟩

/-- A rest of which enough is known to tell what stops at it. -/
def Settles (rest : List Char) : Prop :=
  rest ≠ [] ∧ rest ≠ ['.']

theorem settles_append {first second : List Char} (h : Settles second) :
    Settles (first ++ second) := by
  cases first with
  | nil => exact h
  | cons x first => simp [Settles, h.1]

theorem settles_of_two_le {rest : List Char} (h : 2 ≤ Text.byteLength rest) : Settles rest := by
  constructor
  · rintro rfl
    contradiction
  · rintro rfl
    contradiction

/-- One character of the rest is enough to know, if no digit comes behind a point. -/
theorem Stops.append_of_ne_nil {text rest behind : List Char} (h : Stops text rest)
    (hrest : rest ≠ []) (hpoint : rest = ['.'] → ∀ y ∈ behind.head?, y.isDigit = false) :
    Stops text (rest ++ behind) := by
  intro more hne hlength hbegins reading hlexeme
  by_cases hshort : more.length ≤ rest.length
  · have hmore : more <+: rest :=
      List.prefix_of_prefix_length_le hbegins (List.prefix_append ..) hshort
    exact h more hne hlength hmore reading hlexeme
  · -- One character of the rest is known, and `more` ends with one behind it.
    have hpos := List.length_pos_iff.2 hrest
    obtain ⟨x, rfl⟩ : ∃ x, rest = [x] := List.length_eq_one_iff.1 (by omega)
    obtain ⟨y, rfl, hy⟩ : ∃ y, more = [x, y] ∧ y ∈ behind.head? := by
      match more, hshort, hlength, hbegins with
      | [_], hshort, _, _ => exact absurd (Nat.le_refl 1) hshort
      | [_, y], _, _, hbegins =>
          obtain ⟨rfl, after, rfl⟩ := List.cons_prefix_cons.1 hbegins
          exact ⟨y, rfl, rfl⟩
    have htext : (text ++ [x, y]).dropLast = text ++ [x] := by simp
    obtain ⟨reading', hshorter⟩ := exists_dropLast hlexeme (by simp [htext]) (by
      intro hlast
      have hx : x = '.' := by simpa [htext] using hlast
      exact ⟨y, by simp, hpoint (by rw [hx]) y hy⟩)
    rw [htext] at hshorter
    exact h.head? rfl reading' hshorter

theorem Stops.append {text rest : List Char} (h : Stops text rest) (hrest : Settles rest)
    (behind : List Char) : Stops text (rest ++ behind) :=
  h.append_of_ne_nil hrest.1 fun hpoint => absurd hpoint hrest.2

end Lexeme

end ScriptLexer
