import ScriptLexer.Proofs.ReadNumber
import Mathlib.Data.Nat.Find

/-!
The lexemes of a script, class by class: which texts there are, and what each of
them stands for. Nothing here walks through a script. A script is cut into
lexemes by always taking the longest one that it begins with, so two notions of
"nothing more belongs to this lexeme" follow. `IsLongest` compares a lexeme with
everything that the script begins with; `Stops` looks at no more than the next
two characters. They agree, which `LongestMatch` shows by way of the scanner.
-/

namespace ScriptLexer

namespace Lexeme

def marks : List Char := ['(', ')', '\x7b', '\x7d', ',', '.', '-', '+', ';', '*']

def operators : List Char := ['!', '=', '<', '>']

def quotes : List Char := ['"', '\'']

def blanks : List Char := [' ', '\t', '\r', '\n']

def commentEnd : List Char := ['*', '/']

def Digits (text : List Char) : Prop :=
  text ≠ [] ∧ ∀ c ∈ text, c.isDigit = true

def IsWordStart (c : Char) : Prop :=
  ('A' ≤ c ∧ c ≤ 'Z') ∨ ('a' ≤ c ∧ c ≤ 'z') ∨ c = '_'

def IsWordPart (c : Char) : Prop :=
  IsWordStart c ∨ ('0' ≤ c ∧ c ≤ '9')

instance : DecidablePred IsWordStart := fun _ => inferInstanceAs (Decidable (_ ∨ _))

instance : DecidablePred IsWordPart := fun _ => inferInstanceAs (Decidable (_ ∨ _))

def reservedWords : List (String × Keyword) :=
  [("and", .and_), ("or", .or_), ("class", .class_), ("else", .else_), ("false", .false_),
   ("for", .for_), ("foreach", .foreach_), ("function", .function_), ("if", .if_),
   ("null", .null_), ("print", .print_), ("return", .return_), ("super", .super_),
   ("this", .this_), ("true", .true_), ("var", .var_), ("while", .while_)]

def wordKind (word : String) : Kind :=
  match reservedWords.lookup word with
  | some keyword => .keyword keyword
  | none => .identifier

/-- `mark` occurs in `body ++ mark` at the very end and nowhere before. -/
def ClosedBy (mark body : List Char) : Prop :=
  ∀ before after, body ++ mark = before ++ mark ++ after → after = []

/-- The characters that begin a lexeme and are neither digits nor word starts. -/
def starters : List Char := marks ++ operators ++ ['/'] ++ quotes ++ blanks

/-- A character that begins no lexeme of the other classes. -/
structure IsStray (c : Char) : Prop where
  not_starter : c ∉ starters
  not_digit : c.isDigit = false
  not_wordStart : ¬ IsWordStart c

end Lexeme

open Lexeme in
/-- `Lexeme text reading` says that `text` belongs to a class of lexemes, and that
it stands for `reading`. -/
inductive Lexeme : List Char → Reading → Prop
  | mark {c : Char} {kind : Kind} (hc : c ∈ marks) (hkind : Kind.ofMark? c = some kind) :
      Lexeme [c] (.token kind none)
  | operator {c : Char} {pair : Kind.OperatorPair} (hc : c ∈ operators)
      (hpair : Kind.ofOperator? c = some pair) : Lexeme [c] (.token pair.alone none)
  | operatorEqual {c : Char} {pair : Kind.OperatorPair} (hc : c ∈ operators)
      (hpair : Kind.ofOperator? c = some pair) : Lexeme [c, '='] (.token pair.withEqual none)
  | slash : Lexeme ['/'] (.token .slash none)
  | lineComment {body : List Char} (hbody : '\n' ∉ body) :
      Lexeme ('/' :: '/' :: body) .skipped
  | blockComment {body : List Char} (hbody : ClosedBy commentEnd body) :
      Lexeme ('/' :: '*' :: (body ++ commentEnd)) .skipped
  | openComment {body : List Char} (hbody : ¬ commentEnd <:+: body) :
      Lexeme ('/' :: '*' :: body) (.fault .unterminatedComment)
  | string {quote : Char} {body : List Char} (hquote : quote ∈ quotes) (hbody : quote ∉ body) :
      Lexeme (quote :: (body ++ [quote])) (.token .string (some (.text (String.ofList body))))
  | openString {quote : Char} {body : List Char} (hquote : quote ∈ quotes)
      (hbody : quote ∉ body) : Lexeme (quote :: body) (.fault .unterminatedString)
  | integer {digits : List Char} (hdigits : Digits digits)
      (hvalue : Number.valueOfDigits digits ≤ Reading.greatestInteger) :
      Lexeme digits (.token .integerNumber (some (.integer (Number.valueOfDigits digits))))
  | greatInteger {digits : List Char} (hdigits : Digits digits)
      (hvalue : Reading.greatestInteger < Number.valueOfDigits digits) :
      Lexeme digits (.fault .integerOverflow)
  | decimal {whole fraction : List Char} {value : Number.Binary64} (hwhole : Digits whole)
      (hfraction : Digits fraction)
      (hvalue : Number.Binary64.ofQuotient? (Number.valueOfDigits (whole ++ fraction))
        (Nat.pow 10 fraction.length) = some value) :
      Lexeme (whole ++ '.' :: fraction) (.token .number (some (.float value)))
  | greatDecimal {whole fraction : List Char} (hwhole : Digits whole) (hfraction : Digits fraction)
      (hvalue : Number.Binary64.ofQuotient? (Number.valueOfDigits (whole ++ fraction))
        (Nat.pow 10 fraction.length) = none) :
      Lexeme (whole ++ '.' :: fraction) (.fault .floatOverflow)
  | word {first : Char} {more : List Char} (hfirst : IsWordStart first)
      (hmore : ∀ c ∈ more, IsWordPart c) :
      Lexeme (first :: more) (.token (wordKind (String.ofList (first :: more))) none)
  | blank {c : Char} (hc : c ∈ blanks) : Lexeme [c] .skipped
  | stray {c : Char} (hc : IsStray c) : Lexeme [c] (.fault (.invalidCharacter c))

namespace Lexeme

theorem exists_ofMark? {c : Char} (h : c ∈ marks) : ∃ kind, Kind.ofMark? c = some kind := by
  have hall : marks.all (fun c => (Kind.ofMark? c).isSome) = true := by decide
  exact Option.isSome_iff_exists.1 (List.all_eq_true.1 hall c h)

theorem exists_ofOperator? {c : Char} (h : c ∈ operators) :
    ∃ pair, Kind.ofOperator? c = some pair := by
  have hall : operators.all (fun c => (Kind.ofOperator? c).isSome) = true := by decide
  exact Option.isSome_iff_exists.1 (List.all_eq_true.1 hall c h)

theorem isWordStart_iff {c : Char} : isWordStart c = true ↔ IsWordStart c := by
  delta isWordStart Char.isAlpha Char.isUpper Char.isLower
  simp only [Bool.or_eq_true, Bool.and_eq_true, decide_eq_true_eq, beq_iff_eq, or_assoc]
  rfl

theorem isWordPart_iff {c : Char} : isWordPart c = true ↔ IsWordPart c := by
  have hdigit : c.isDigit = true ↔ '0' ≤ c ∧ c ≤ '9' := by simp [Char.isDigit, Char.le_def]
  rw [IsWordPart, ← isWordStart_iff, ← hdigit]
  delta isWordPart isWordStart Char.isAlphanum
  simp only [Bool.or_eq_true, or_right_comm]

/-- The other spellings of keywords begin with no word start. -/
theorem ofWord_eq_wordKind {first : Char} {more : List Char} (hfirst : IsWordStart first) :
    Kind.ofWord (String.ofList (first :: more)) = wordKind (String.ofList (first :: more)) := by
  have hne (c : Char) (hc : ¬ IsWordStart c) (text : List Char) :
      String.ofList (first :: more) ≠ String.ofList (c :: text) := by
    rw [Ne, String.ofList_inj, List.cons.injEq]
    rintro ⟨rfl, -⟩
    exact hc hfirst
  have hlookup : [("&&", Keyword.and_), ("||", Keyword.or_)].lookup
      (String.ofList (first :: more)) = none := by
    have hand := hne '&' (by decide) ['&']
    have hor := hne '|' (by decide) ['|']
    rw [List.lookup_cons, beq_false_of_ne hand, List.lookup_cons, beq_false_of_ne hor]
    rfl
  have hspellings : Keyword.spellings = reservedWords ++ [("&&", .and_), ("||", .or_)] := rfl
  rw [Kind.ofWord, Keyword.ofSpelling?, hspellings, List.lookup_append, hlookup, Option.or_none]
  rfl

theorem ne_nil {text : List Char} {reading : Reading} (h : Lexeme text reading) : text ≠ [] := by
  cases h with
  | integer hdigits => exact hdigits.1
  | greatInteger hdigits => exact hdigits.1
  | _ => simp

theorem ofInteger {digits : List Char} (h : Digits digits) :
    Lexeme digits (Reading.ofInteger digits) := by
  rw [Reading.ofInteger_eq h.1 h.2]
  split
  · next hvalue => exact .integer h hvalue
  · next hvalue => exact .greatInteger h (Nat.lt_of_not_le hvalue)

theorem ofDecimal {whole fraction : List Char} (hwhole : Digits whole)
    (hfraction : Digits fraction) :
    Lexeme (whole ++ '.' :: fraction) (Reading.ofDecimal whole fraction) := by
  rw [Reading.ofDecimal_eq hwhole.1 hwhole.2 hfraction.2]
  split
  · next hvalue => exact .decimal hwhole hfraction hvalue
  · next hvalue => exact .greatDecimal hwhole hfraction hvalue

theorem exists_of_char (c : Char) : ∃ reading, Lexeme [c] reading := by
  by_cases hmark : c ∈ marks
  · obtain ⟨kind, hkind⟩ := exists_ofMark? hmark
    exact ⟨_, .mark hmark hkind⟩
  by_cases hoperator : c ∈ operators
  · obtain ⟨pair, hpair⟩ := exists_ofOperator? hoperator
    exact ⟨_, .operator hoperator hpair⟩
  by_cases hslash : c = '/'
  · subst hslash
    exact ⟨_, .slash⟩
  by_cases hquote : c ∈ quotes
  · exact ⟨_, .openString hquote List.not_mem_nil⟩
  by_cases hblank : c ∈ blanks
  · exact ⟨_, .blank hblank⟩
  by_cases hdigit : c.isDigit = true
  · exact ⟨_, ofInteger ⟨List.cons_ne_nil _ _, by simpa using hdigit⟩⟩
  by_cases hword : IsWordStart c
  · exact ⟨_, .word hword (by simp)⟩
  · refine ⟨_, .stray ⟨?_, eq_false_of_ne_true hdigit, hword⟩⟩
    simp [starters, hmark, hoperator, hslash, hquote, hblank]

theorem Digits.append {first second : List Char} (hfirst : Digits first)
    (hsecond : ∀ x ∈ second, x.isDigit = true) : Digits (first ++ second) := by
  refine ⟨by simp [hfirst.1], ?_⟩
  intro x hx
  rcases List.mem_append.1 hx with hx | hx
  · exact hfirst.2 x hx
  · exact hsecond x hx

/-- Where a text did not hold the mark, one more character brings it in at the end
or not at all. -/
theorem eq_nil_of_append_singleton {mark body before after : List Char} {x : Char}
    (hbody : ¬ mark <:+: body) (h : body ++ [x] = before ++ mark ++ after) : after = [] := by
  rcases List.eq_nil_or_concat after with hnil | ⟨after, y, rfl⟩
  · exact hnil
  · have hlonger : body ++ [x] = (before ++ mark ++ after) ++ [y] := by
      simpa [List.concat_eq_append] using h
    exact absurd ⟨before, after, (List.append_inj_left' hlonger rfl).symm⟩ hbody

theorem exists_of_openComment {body : List Char} (hbody : ¬ commentEnd <:+: body) (x : Char) :
    ∃ reading, Lexeme ('/' :: '*' :: (body ++ [x])) reading := by
  by_cases hmark : commentEnd <:+: body ++ [x]
  · -- No mark lies within `body`, so the one found ends with `x`, and no other ends earlier.
    obtain ⟨inner, after, hinner⟩ := hmark
    obtain rfl := eq_nil_of_append_singleton hbody hinner.symm
    rw [List.append_nil] at hinner
    have hclosed : ClosedBy commentEnd inner := by
      intro before after hbefore
      exact eq_nil_of_append_singleton hbody (hinner.symm.trans hbefore)
    rw [← hinner]
    exact ⟨_, .blockComment hclosed⟩
  · exact ⟨_, .openComment hmark⟩

theorem exists_of_openString {quote : Char} {body : List Char} (hquote : quote ∈ quotes)
    (hbody : quote ∉ body) (x : Char) : ∃ reading, Lexeme (quote :: (body ++ [x])) reading := by
  by_cases hx : x = quote
  · subst hx
    exact ⟨_, .string hquote hbody⟩
  · exact ⟨_, .openString hquote (by simp [hbody, Ne.symm hx])⟩

structure IsLongest (script text : List Char) : Prop where
  begins : text <+: script
  isLexeme : ∃ reading, Lexeme text reading
  length_le : ∀ other reading, Lexeme other reading → other <+: script →
    other.length ≤ text.length

/-- No lexeme begins with `text` and goes on with the next one or two characters
of `rest`. -/
def Stops (text rest : List Char) : Prop :=
  ∀ more, more ≠ [] → more.length ≤ 2 → more <+: rest →
    ∀ reading, ¬ Lexeme (text ++ more) reading

theorem IsLongest.stops {text rest : List Char} (h : IsLongest (text ++ rest) text) :
    Stops text rest := by
  intro more hmore _ hbegins reading hlexeme
  have hle := h.length_le _ _ hlexeme ((List.prefix_append_right_inj text).2 hbegins)
  have hpos := List.length_pos_iff.2 hmore
  rw [List.length_append] at hle
  omega

theorem Stops.head? {text rest : List Char} (h : Stops text rest) {x : Char}
    (hx : x ∈ rest.head?) (reading : Reading) : ¬ Lexeme (text ++ [x]) reading := by
  obtain ⟨tail, rfl⟩ := List.head?_eq_some_iff.1 hx
  exact h [x] (List.cons_ne_nil _ _) (by simp) ⟨tail, rfl⟩ reading

theorem Stops.pair {text rest : List Char} {x y : Char} (h : Stops text (x :: y :: rest))
    (reading : Reading) : ¬ Lexeme (text ++ [x, y]) reading :=
  h [x, y] (List.cons_ne_nil _ _) (by simp) ⟨rest, rfl⟩ reading

theorem Stops.eq_nil {text rest : List Char} (h : Stops text rest)
    (hgoes : ∀ x, ∃ reading, Lexeme (text ++ [x]) reading) : rest = [] := by
  cases rest with
  | nil => rfl
  | cons x rest =>
      obtain ⟨reading, hlexeme⟩ := hgoes x
      exact absurd hlexeme (h.head? rfl reading)

theorem Stops.eq_lineFeed {body rest : List Char} (h : Stops ('/' :: '/' :: body) rest)
    (hbody : '\n' ∉ body) : ∀ x ∈ rest.head?, x = '\n' := by
  intro x hx
  by_contra hne
  exact h.head? hx _ (.lineComment (by simp [hbody, Ne.symm hne]))

theorem Stops.equal_not_mem_head? {c : Char} {rest : List Char} (h : Stops [c] rest)
    (hc : c ∈ operators) : '=' ∉ rest.head? := by
  obtain ⟨pair, hpair⟩ := exists_ofOperator? hc
  intro hequal
  exact h.head? hequal _ (.operatorEqual hc hpair)

theorem Stops.slash_star_not_mem_head? {rest : List Char} (h : Stops ['/'] rest) :
    '/' ∉ rest.head? ∧ '*' ∉ rest.head? := by
  constructor
  · intro hline
    exact h.head? hline _ (.lineComment List.not_mem_nil)
  · intro hblock
    exact h.head? hblock _ (.openComment (by decide))

theorem Stops.not_isDigit {digits rest : List Char} (h : Stops digits rest)
    (hdigits : Digits digits) : ∀ x ∈ rest.head?, x.isDigit = false := by
  intro x hx
  by_contra hdigit
  refine h.head? hx _ (.ofInteger (hdigits.append ?_))
  simpa using hdigit

theorem Stops.not_isDigit_of_point {digits rest : List Char} (h : Stops digits rest)
    (hdigits : Digits digits) : ∀ x more, rest = '.' :: x :: more → x.isDigit = false := by
  rintro x more rfl
  by_contra hdigit
  refine h.pair _ (.ofDecimal hdigits ⟨List.cons_ne_nil x [], ?_⟩)
  simpa using hdigit

theorem Stops.not_isDigit_of_decimal {whole fraction rest : List Char}
    (h : Stops (whole ++ '.' :: fraction) rest) (hwhole : Digits whole)
    (hfraction : Digits fraction) : ∀ x ∈ rest.head?, x.isDigit = false := by
  intro x hx
  by_contra hdigit
  have hlonger : Digits (fraction ++ [x]) := hfraction.append (by simpa using hdigit)
  refine h.head? hx (Reading.ofDecimal whole (fraction ++ [x])) ?_
  simpa using Lexeme.ofDecimal hwhole hlonger

theorem Stops.not_isWordPart {first : Char} {more rest : List Char}
    (h : Stops (first :: more) rest) (hfirst : IsWordStart first)
    (hmore : ∀ c ∈ more, IsWordPart c) : ∀ x ∈ rest.head?, ¬ IsWordPart x := by
  intro x hx hpart
  refine h.head? hx _ (.word hfirst ?_)
  intro y hy
  rcases List.mem_append.1 hy with hy | hy
  · exact hmore y hy
  · rw [List.mem_singleton.1 hy]
    exact hpart

theorem Stops.mono {text rest shorter : List Char} (h : Stops text rest)
    (hshorter : shorter <+: rest) : Stops text shorter := by
  intro more hmore hlength hbegins
  exact h more hmore hlength (hbegins.trans hshorter)

/-- The lexemes that a script begins with are no longer than the script, so one of
them is the longest. -/
theorem exists_isLongest {script : List Char} (h : script ≠ []) :
    ∃ text, IsLongest script text := by
  classical
  obtain ⟨c, rest, rfl⟩ := List.exists_cons_of_ne_nil h
  -- The lengths of the lexemes that the script begins with.
  let Begins (n : Nat) : Prop :=
    ∃ text reading, Lexeme text reading ∧ text <+: c :: rest ∧ text.length = n
  have hone : Begins 1 := by
    obtain ⟨reading, hlexeme⟩ := exists_of_char c
    exact ⟨[c], reading, hlexeme, ⟨rest, rfl⟩, rfl⟩
  have hbound : 1 ≤ (c :: rest).length := by simp
  obtain ⟨text, reading, hlexeme, hbegins, hlength⟩ := Nat.findGreatest_spec hbound hone
  refine ⟨text, hbegins, ⟨reading, hlexeme⟩, ?_⟩
  intro other reading' hother hother'
  rw [hlength]
  exact Nat.le_findGreatest hother'.length_le ⟨other, reading', hother, hother', rfl⟩

end Lexeme

end ScriptLexer
