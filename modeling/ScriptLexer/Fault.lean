import ScriptLexer.Token

/-!
Faults: what can be wrong in a script. A fault does not end a scan; it takes
the place of the token that the text at its span would have made.
-/

namespace ScriptLexer

namespace Fault

inductive Kind where
  | unterminatedString
  | unterminatedComment
  | invalidCharacter (char : Char)
  | integerOverflow
  | floatOverflow
  | invalidNumber
  deriving DecidableEq

def Kind.message : Kind → String
  | unterminatedString => "Unterminated string"
  | unterminatedComment => "Unterminated comment"
  | invalidCharacter char => "Invalid character '" ++ String.singleton char ++ "'"
  | integerOverflow => "Integer overflow"
  | floatOverflow => "Float overflow"
  | invalidNumber => "Invalid number"

end Fault

structure Fault where
  kind : Fault.Kind
  /-- The line on which the faulty text begins. -/
  line : Nat
  span : Span
  deriving DecidableEq

namespace Fault

def message (fault : Fault) : String :=
  fault.kind.message ++ " at line " ++ toString fault.line

def code : String := "glox::scan"

structure Label where
  note : String
  span : Span
  deriving DecidableEq

def labels (fault : Fault) : List Label :=
  [⟨"here", fault.span⟩]

end Fault

end ScriptLexer
