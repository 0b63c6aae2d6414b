import ScriptLexer.Cursor
import ScriptLexer.Fault
import ScriptLexer.Number.FromText
import ScriptLexer.Token.Spelling

/-!
Reading one lexeme. The first character decides what kind of lexeme begins;
from there on the cursor takes as much as the lexeme can hold. A reading says
what the lexeme stands for: a token, a fault, or nothing.
-/

namespace ScriptLexer

/-- What a lexeme stands for. -/
inductive Reading where
  /-- White space, or a comment. -/
  | skipped
  | token (kind : Kind) (literal : Option Literal)
  | fault (kind : Fault.Kind)
  deriving DecidableEq

namespace Reading

def greatestInteger : Nat := Nat.pow 2 63 - 1

/-- What digits stand for: their value, unless it is too great. Digits meet no other
error. -/
def ofInteger (digits : List Char) : Reading :=
  match Number.Integer64.ofText digits with
  | .ok value => .token .integerNumber (some (.integer value.toInt))
  | .error .overflow => .fault .integerOverflow
  | .error _ => .fault .invalidNumber

/-- What digits around a point stand for: their value, unless it rounds to infinity.
Such a text always has a value. -/
def ofDecimal (whole fraction : List Char) : Reading :=
  match Number.Binary64.ofText? (whole ++ '.' :: fraction) with
  | some value =>
    if value.isFinite then .token .number (some (.float value)) else .fault .floatOverflow
  | none => .fault .invalidNumber

/-- Goes on after a slash: a line comment up to the end of the line, a block
comment up to its closing mark, or else the slash alone. -/
def afterSlash (c : Cursor) : Reading × Cursor :=
  match c.accept '/' with
  | (true, c) => (.skipped, (c.takeUpTo '\n').2)
  | (false, c) =>
    match c.accept '*' with
    | (true, c) =>
      match c.takePast ['*', '/'] with
      | (some _, c) => (.skipped, c)
      | (none, c) => (.fault .unterminatedComment, c)
    | (false, c) => (.token .slash none, c)

def afterQuote (quote : Char) (c : Cursor) : Reading × Cursor :=
  let (body, c) := c.takeUpTo quote
  match c.accept quote with
  | (true, c) => (.token .string (some (.text (String.ofList body))), c)
  | (false, c) => (.fault .unterminatedString, c)

/-- Goes on after the first digit of a number. A point that no digit follows
does not belong to the number. -/
def afterDigit (first : Char) (c : Cursor) : Reading × Cursor :=
  let (more, c) := c.takeRun Char.isDigit
  match c.takeFraction with
  | (some fraction, c) => (ofDecimal (first :: more) fraction, c)
  | (none, c) => (ofInteger (first :: more), c)

def afterWordStart (first : Char) (c : Cursor) : Reading × Cursor :=
  let (more, c) := c.takeRun isWordPart
  (.token (.ofWord (String.ofList (first :: more))) none, c)

def afterFirst (first : Char) (c : Cursor) : Reading × Cursor :=
  match Kind.ofMark? first with
  | some kind => (.token kind none, c)
  | none =>
    match Kind.ofOperator? first with
    | some pair =>
      match c.accept '=' with
      | (true, c) => (.token pair.withEqual none, c)
      | (false, c) => (.token pair.alone none, c)
    | none =>
      if first = '/' then afterSlash c
      else if first = ' ' ∨ first = '\t' ∨ first = '\r' then (.skipped, c)
      else if first = '\n' then (.skipped, c.breakLine)
      else if first = '"' ∨ first = '\'' then afterQuote first c
      else if first.isDigit then afterDigit first c
      else if isWordStart first then afterWordStart first c
      else (.fault (.invalidCharacter first), c)

def next? (c : Cursor) : Option (Reading × Cursor) :=
  match c.mark.next with
  | (some first, c) => some (afterFirst first c)
  | (none, _) => none

theorem next?_eq_none_iff {c : Cursor} : next? c = none ↔ c.rest = [] := by
  unfold next? Cursor.next
  cases h : c.mark.rest with
  | nil => exact ⟨fun _ => h, fun _ => rfl⟩
  | cons first rest =>
    have hrest : c.rest = first :: rest := h
    simp [hrest]

theorem next?_eq_some {c : Cursor} {first : Char} {rest : List Char}
    (h : c.rest = first :: rest) :
    next? c = some (afterFirst first (c.mark.take [first] rest)) := by
  have hrest : c.mark.rest = first :: rest := h
  simp [next?, Cursor.next, hrest]

theorem advances_afterSlash (c : Cursor) : c.Advances (afterSlash c).2 := by
  unfold afterSlash
  have hline := c.advances_accept '/'
  have hblock := (c.accept '/').2.advances_accept '*'
  split
  · next c₁ h =>
    rw [h] at hline
    exact hline.trans (c₁.advances_takeUpTo '\n')
  · next c₁ h =>
    rw [h] at hline hblock
    split
    · next c₂ h₂ =>
      rw [h₂] at hblock
      have hpast := c₂.advances_takePast ['*', '/']
      split <;> next h₃ => rw [h₃] at hpast; exact hline.trans (hblock.trans hpast)
    · next c₂ h₂ =>
      rw [h₂] at hblock
      exact hline.trans hblock

theorem advances_afterQuote (quote : Char) (c : Cursor) :
    c.Advances (afterQuote quote c).2 := by
  unfold afterQuote
  have hbody := c.advances_takeUpTo quote
  have hclose := (c.takeUpTo quote).2.advances_accept quote
  simp only
  split <;> next h => rw [h] at hclose; exact hbody.trans hclose

theorem advances_afterDigit (first : Char) (c : Cursor) :
    c.Advances (afterDigit first c).2 := by
  unfold afterDigit
  have hrun := c.advances_takeRun Char.isDigit
  have hfraction := (c.takeRun Char.isDigit).2.advances_takeFraction
  simp only
  split <;> next h => rw [h] at hfraction; exact hrun.trans hfraction

theorem advances_afterFirst (first : Char) (c : Cursor) :
    c.Advances (afterFirst first c).2 := by
  unfold afterFirst
  have hequal := c.advances_accept '='
  split
  · exact .refl c
  · split
    · split <;> next h => rw [h] at hequal; exact hequal
    · split
      · exact advances_afterSlash c
      split
      · exact .refl c
      split
      · exact c.advances_breakLine
      split
      · exact advances_afterQuote first c
      split
      · exact advances_afterDigit first c
      split
      · exact c.advances_takeRun isWordPart
      · exact .refl c

theorem length_rest_next? {c d : Cursor} {reading : Reading}
    (h : next? c = some (reading, d)) : d.rest.length < c.rest.length := by
  unfold next? at h
  split at h
  · next first c₁ hnext =>
    have hadvances := advances_afterFirst first c₁
    rw [Option.some.inj h] at hadvances
    exact Nat.lt_of_le_of_lt hadvances.length_rest_le
      (Cursor.length_rest_next (c := c.mark) hnext)
  · simp at h

end Reading

end ScriptLexer
