import ScriptLexer.Drawing
import ScriptLexer.Listing
import ScriptLexer.Prompt

/-!
What a run leaves to others. Whatever they do, a run uses them in the same way, so it takes
them as they come; the usual ones stand beside.
-/

namespace ScriptLexer

structure Facilities where
  /-- The lines of an input. A line that cannot be read is none. -/
  lines : List UInt8 → List (Option String)
  /-- What is said in detail of a line that cannot be read. -/
  causes : String
  draw : Diagnostic → String
  /-- How values are written in a JSON listing. -/
  style : Number.Style

namespace Facilities

def usual : Facilities where
  lines := Prompt.deliver
  causes := Prompt.causes
  draw := Diagnostic.draw
  style := Listing.jsonStyle

end Facilities

end ScriptLexer
