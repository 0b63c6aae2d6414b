import ScriptLexer.Text.Split
import ScriptLexer.Token

/-!
A cursor walks through a script once. It holds the lexeme taken since the last
mark and the text still to come, so a script is what came before the mark,
followed by the lexeme and the rest.

Every operation that moves the cursor takes a text off the front of the rest and
puts it behind the lexeme. Lines are counted by the operations that run up to or
past a given text; taking single characters or a run of a class counts none.

The relation `Advances` says what all of them have in common. It is transitive,
and what is left never grows along it; a scan ends because each lexeme takes at
least one character.
-/

namespace ScriptLexer

structure Cursor where
  /-- The byte offset at which the lexeme begins. -/
  start : Nat
  lexeme : List Char
  rest : List Char
  startLine : Nat
  line : Nat
  deriving DecidableEq

namespace Cursor

def ofText (text : List Char) : Cursor :=
  ⟨0, [], text, 1, 1⟩

def offset (c : Cursor) : Nat :=
  c.start + Text.byteLength c.lexeme

def span (c : Cursor) : Span :=
  ⟨c.start, Text.byteLength c.lexeme⟩

def atEnd (c : Cursor) : Bool :=
  c.rest.isEmpty

def mark (c : Cursor) : Cursor :=
  { c with start := c.offset, lexeme := [], startLine := c.line }

def breakLine (c : Cursor) : Cursor :=
  { c with line := c.line + 1 }

def countLines (c : Cursor) (text : List Char) : Cursor :=
  { c with line := c.line + Text.lineFeeds text }

def take (c : Cursor) (text rest : List Char) : Cursor :=
  { c with lexeme := c.lexeme ++ text, rest }

def next (c : Cursor) : Option Char × Cursor :=
  match c.rest with
  | [] => (none, c)
  | char :: rest => (some char, c.take [char] rest)

def accept (c : Cursor) (expected : Char) : Bool × Cursor :=
  match c.rest with
  | [] => (false, c)
  | char :: rest => if char = expected then (true, c.take [char] rest) else (false, c)

def takeRun (c : Cursor) (isMember : Char → Bool) : List Char × Cursor :=
  let run := c.rest.takeWhile isMember
  (run, c.take run (c.rest.dropWhile isMember))

/-- Takes everything before the next `stop`, or all of the rest, and counts its
lines. -/
def takeUpTo (c : Cursor) (stop : Char) : List Char × Cursor :=
  let (run, c) := c.takeRun (· != stop)
  (run, c.countLines run)

/-- Takes everything up to the end of the next `mark` and gives the text before
it, counting the lines of that text. Without a mark in sight it takes all of the
rest, counts its lines, and gives nothing. -/
def takePast (c : Cursor) (mark : List Char) : Option (List Char) × Cursor :=
  match Text.splitAtMark? mark c.rest with
  | some (before, after) => (some before, (c.take (before ++ mark) after).countLines before)
  | none => (none, (c.take c.rest []).countLines c.rest)

/-- Takes a point and the digits after it, and gives the digits. Without a digit
after the point it takes nothing. -/
def takeFraction (c : Cursor) : Option (List Char) × Cursor :=
  match c.rest with
  | '.' :: rest =>
    let digits := rest.takeWhile Char.isDigit
    if digits.isEmpty then (none, c)
    else (some digits, c.take ('.' :: digits) (rest.dropWhile Char.isDigit))
  | _ => (none, c)

/-- `d` stands behind the same mark as `c`, and has taken a text from the front of
what `c` had left. -/
def Advances (c d : Cursor) : Prop :=
  d.start = c.start ∧ d.startLine = c.startLine ∧
    ∃ text, d.lexeme = c.lexeme ++ text ∧ c.rest = text ++ d.rest

namespace Advances

theorem refl (c : Cursor) : c.Advances c :=
  ⟨rfl, rfl, [], by simp, rfl⟩

theorem trans {c d e : Cursor} (hcd : c.Advances d) (hde : d.Advances e) : c.Advances e := by
  obtain ⟨hstart, hline, first, hlexeme, hrest⟩ := hcd
  obtain ⟨hstart', hline', second, hlexeme', hrest'⟩ := hde
  refine ⟨hstart'.trans hstart, hline'.trans hline, first ++ second, ?_, ?_⟩
  · rw [hlexeme', hlexeme, List.append_assoc]
  · rw [hrest, hrest', List.append_assoc]

theorem length_rest_le {c d : Cursor} (h : c.Advances d) : d.rest.length ≤ c.rest.length := by
  obtain ⟨_, _, text, _, hrest⟩ := h
  rw [hrest, List.length_append]
  exact Nat.le_add_left ..

end Advances

theorem advances_take {c : Cursor} {text rest : List Char} (h : c.rest = text ++ rest) :
    c.Advances (c.take text rest) :=
  ⟨rfl, rfl, text, rfl, h⟩

theorem advances_breakLine (c : Cursor) : c.Advances c.breakLine :=
  Advances.refl c

theorem advances_accept (c : Cursor) (expected : Char) : c.Advances (c.accept expected).2 := by
  unfold accept
  split
  · exact Advances.refl c
  · next h =>
    split
    · exact advances_take h
    · exact Advances.refl c

theorem advances_takeRun (c : Cursor) (isMember : Char → Bool) :
    c.Advances (c.takeRun isMember).2 :=
  advances_take List.takeWhile_append_dropWhile.symm

theorem advances_takeUpTo (c : Cursor) (stop : Char) : c.Advances (c.takeUpTo stop).2 :=
  c.advances_takeRun (· != stop)

theorem advances_takePast (c : Cursor) (mark : List Char) : c.Advances (c.takePast mark).2 := by
  unfold takePast
  split
  · next h => exact advances_take (c := c) (Text.eq_append_of_splitAtMark? h)
  · exact advances_take (c := c) (List.append_nil c.rest).symm

theorem advances_takeFraction (c : Cursor) : c.Advances c.takeFraction.2 := by
  unfold takeFraction
  split
  · next rest h =>
    simp only
    split
    · exact Advances.refl c
    · refine advances_take ?_
      rw [h, List.cons_append, List.takeWhile_append_dropWhile]
  · exact Advances.refl c

theorem length_rest_next {c d : Cursor} {char : Char} (h : c.next = (some char, d)) :
    d.rest.length < c.rest.length := by
  unfold next at h
  split at h
  · simp at h
  · next hrest =>
    obtain ⟨_, rfl⟩ := Prod.mk.inj h
    simp [take, hrest]

end Cursor

end ScriptLexer
