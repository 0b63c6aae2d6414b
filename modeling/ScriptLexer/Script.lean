import ScriptLexer.Failure
import ScriptLexer.FileTree
import ScriptLexer.Text.Utf8

/-!
Loading a script: reading its bytes and decoding them as UTF-8. A script that is
not there is a failure of its own; whatever else stands in the way is a cause.
-/

namespace ScriptLexer

/-- How a run reads files: the bytes at a path, or why there are none. -/
abbrev Files := String → Except ReadError (List UInt8)

namespace Script

def notText : String := "stream did not contain valid UTF-8"

/-- The text of the script at a path. A byte order mark is part of it. -/
def load (files : Files) (path : String) : Except Failure String :=
  match files path with
  | .error .missing => .error (.scriptMissing path)
  | .error error => .error (.scriptUnreadable path error.cause)
  | .ok bytes =>
    match Text.decodeUtf8? bytes with
    | some text => .ok text
    | none => .error (.scriptUnreadable path notText)

end Script

end ScriptLexer
