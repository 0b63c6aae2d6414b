import ScriptLexer.Text.Attaching
import ScriptLexer.Text.Ranges
import ScriptLexer.Text.Unseen

/-!
Characters that a quoted text shows as they are. The others leave no mark of
their own on the line, or would attach to the character before them.
-/

namespace ScriptLexer.Text

def isPlain (c : Char) : Bool :=
  if c.toNat < 0x7F then 0x20 ≤ c.toNat
  else !inRanges unseen c.toNat && !inRanges attaching c.toNat

end ScriptLexer.Text
