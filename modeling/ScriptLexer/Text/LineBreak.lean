import ScriptLexer.Text.Measure

/-!
Where a label stands in a script. A label counts a carriage return with its
line feed, a lone line feed and a lone carriage return as one line break each,
unlike the scanner, which counts line feeds only.
-/

namespace ScriptLexer.Text

/-- A place in a text: the line breaks before it, and the bytes since the last
of them. -/
structure Place where
  line : Nat
  column : Nat
  deriving DecidableEq

namespace Place

def after : Place → List Char → Place
  | place, [] => place
  | place, '\r' :: '\n' :: text => after ⟨place.line + 1, 0⟩ text
  | place, c :: text =>
    if c = '\n' ∨ c = '\r' then after ⟨place.line + 1, 0⟩ text
    else after ⟨place.line, place.column + c.utf8Size⟩ text

def endOf (text : List Char) : Place :=
  after ⟨0, 0⟩ text

end Place

end ScriptLexer.Text
