import ScriptLexer.Fault

/-!
Reports: the lines in which a run says what went wrong. A reporter writes them
to a sink that may refuse them; a refused line is lost, and the reporter goes on.
-/

namespace ScriptLexer

structure Report where
  message : String
  detail : Option String
  deriving DecidableEq

namespace Report

def line (report : Report) : String :=
  match report.detail with
  | none => "Error '" ++ report.message ++ "'\n"
  | some detail => "Error '" ++ report.message ++ "' on " ++ detail ++ "\n"

def ofFault (fault : Fault) : Report :=
  ⟨fault.message, none⟩

end Report

structure Sink where
  written : String
  /-- Whether the sink refuses what is written. -/
  failing : Bool
  deriving DecidableEq

namespace Sink

def empty : Sink := ⟨"", false⟩

def report (sink : Sink) (report : Report) : Sink :=
  if sink.failing then sink else { sink with written := sink.written ++ report.line }

def reportFaults (sink : Sink) (faults : List Fault) : Sink :=
  faults.foldl (fun sink fault => sink.report (.ofFault fault)) sink

@[simp] theorem failing_report (sink : Sink) (r : Report) :
    (sink.report r).failing = sink.failing := by
  unfold report
  split <;> rfl

end Sink

end ScriptLexer
