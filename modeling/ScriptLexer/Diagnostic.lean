import ScriptLexer.Scan
import ScriptLexer.Text.LineBreak
import ScriptLexer.Text.Split

/-!
Diagnostics: faults with the script that they were found in, so that a label can
show the faulty text and its place. The place counts line breaks as a label does,
which differs from the line of the fault only by lone carriage returns.
-/

namespace ScriptLexer

structure Diagnostic where
  fault : Fault
  name : String
  script : String
  deriving DecidableEq

namespace Diagnostic

/-- The script before the labelled text. -/
def before (d : Diagnostic) : List Char :=
  (Text.splitAtByte d.fault.span.offset d.script.toList).1

def text (d : Diagnostic) : List Char :=
  let rest := (Text.splitAtByte d.fault.span.offset d.script.toList).2
  (Text.splitAtByte d.fault.span.length rest).1

def place (d : Diagnostic) : Text.Place :=
  .endOf d.before

end Diagnostic

def Diagnostic.ofFaults (name script : String) (faults : List Fault) : List Diagnostic :=
  faults.map fun fault => ⟨fault, name, script⟩

namespace Scan

def diagnostics (scan : Scan) (name script : String) : List Diagnostic :=
  Diagnostic.ofFaults name script scan.faults

def labelledResult (scan : Scan) (name script : String) : Except (List Diagnostic) (List Token) :=
  match scan.result with
  | .ok tokens => .ok tokens
  | .error faults => .error (Diagnostic.ofFaults name script faults)

end Scan

structure LabelledScan where
  tokens : List Token
  diagnostics : List Diagnostic
  deriving DecidableEq

def LabelledScan.result (scan : LabelledScan) : Except (List Diagnostic) (List Token) :=
  if scan.diagnostics.isEmpty then .ok scan.tokens else .error scan.diagnostics

def Scan.labelled (scan : Scan) (name script : String) : LabelledScan :=
  ⟨scan.tokens, scan.diagnostics name script⟩

end ScriptLexer
