import ScriptLexer.ExitStatus
import ScriptLexer.Report

/-!
Failures: why a run of a script does not succeed. Each has a message, an exit
status, and, where the system gives one, a cause.
-/

namespace ScriptLexer

inductive Failure where
  | scriptMissing (path : String)
  | scriptUnreadable (path cause : String)
  | scriptFaulty (name : String) (count : Nat)
  deriving DecidableEq

namespace Failure

def message : Failure → String
  | scriptMissing path => "The requested file '" ++ path ++ "' was not found"
  | scriptUnreadable path _ => "failed to read '" ++ path ++ "'"
  | scriptFaulty name count => toString count ++ " lexical error(s) in '" ++ name ++ "'"

def cause? : Failure → Option String
  | scriptUnreadable _ cause => some cause
  | _ => none

def status : Failure → ExitStatus
  | scriptMissing _ => .noInput
  | scriptUnreadable .. => .ioError
  | scriptFaulty .. => .dataError

def report (failure : Failure) : Report :=
  ⟨failure.message, failure.cause?⟩

end Failure

end ScriptLexer
