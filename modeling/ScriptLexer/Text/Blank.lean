import ScriptLexer.Text.Ranges

/-!
Blank characters: those with the Unicode property White_Space. A prompt line
that holds nothing else is skipped.
-/

namespace ScriptLexer.Text

/-- The code points with the property White_Space, as closed ranges. -/
def blankRanges : List (Nat × Nat) :=
  [(0x09, 0x0D), (0x20, 0x20), (0x85, 0x85), (0xA0, 0xA0), (0x1680, 0x1680),
   (0x2000, 0x200A), (0x2028, 0x2029), (0x202F, 0x202F), (0x205F, 0x205F),
   (0x3000, 0x3000)]

def isBlank (c : Char) : Bool :=
  inRanges blankRanges c.toNat

def allBlank (text : List Char) : Bool :=
  text.all isBlank

end ScriptLexer.Text
