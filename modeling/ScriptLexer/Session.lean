import ScriptLexer.CommandLine.Help
import ScriptLexer.Facilities
import ScriptLexer.Log
import ScriptLexer.Script

/-!
A run of the program as a function of its arguments, its files and its input.
The outcome holds what goes to the output and, in order, the notices that go
beside it; a filter decides which log lines among them are shown.
-/

namespace ScriptLexer

inductive Notice where
  | log (event : Log.Event)
  | report (report : Report)
  | diagnostic (diagnostic : Diagnostic)
  | refusal (refusal : CommandLine.Refusal)
  deriving DecidableEq

def Notice.text (facilities : Facilities) (filter : Log.Filter) : Notice → String
  | log event => if filter.shows event.target event.level then event.line else ""
  | report r => r.line
  | diagnostic d => facilities.draw d ++ "\n"
  | refusal r => r.message ++ "\n"

structure Outcome where
  status : ExitStatus
  output : String
  notices : List Notice
  deriving DecidableEq

namespace Outcome

/-- What has been written and said before an outcome. -/
def after (output : String) (notices : List Notice) (outcome : Outcome) : Outcome :=
  { outcome with output := output ++ outcome.output, notices := notices ++ outcome.notices }

def noticeText (outcome : Outcome) (facilities : Facilities) (filter : Log.Filter) : String :=
  String.join (outcome.notices.map (Notice.text facilities filter))

end Outcome

namespace Session

variable (facilities : Facilities)

def scanEvents (scan : Scan) : List Log.Event :=
  scan.items.map
      (fun
        | .token token => .tokenAdded token
        | .fault fault => .faultFound fault)
    ++ [.scanCompleted scan.tokens.length scan.faults.length scan.lastLine]

def faultReports (faults : List Fault) : List Notice :=
  faults.map fun fault => .report (.ofFault fault)

def labelledFaults (scan : Scan) (name script : String) : List Notice :=
  match scan.labelledResult name script with
  | .ok _ => []
  | .error diagnostics => diagnostics.map .diagnostic

/-- Scans a script. The listing is written whether or not there are faults; each
fault is reported or shown with its label, and a summary follows. -/
def scanScript (options : Options) (name script : String) : Outcome :=
  let scan := scan script
  let output :=
    if options.listTokens then Listing.render facilities.style options.format scan.tokens
    else ""
  let events := (scanEvents scan).map .log
  if scan.hasFaults then
    let failure := Failure.scriptFaulty name scan.faults.length
    let faults :=
      if options.labelled then labelledFaults scan name script
      else faultReports scan.faults
    ⟨failure.status, output, events ++ faults ++ [.report failure.report]⟩
  else ⟨.success, output, events⟩

def runScript (options : Options) (files : Files) (path : String) : Outcome :=
  match Script.load files path with
  | .error failure => ⟨failure.status, "", [.report failure.report]⟩
  | .ok script =>
    (scanScript facilities options path script).after ""
      [.log (.scriptRead path script.utf8ByteSize)]

/-- Scans each line by itself and writes its listing; blank lines are skipped. A
line that cannot be read ends the run. -/
def runLines (format : Listing.Format) : List (Option String) → Outcome
  | [] => ⟨.success, "", []⟩
  | none :: _ => ⟨.software, "", [.report (Prompt.unreadableLine facilities.causes)]⟩
  | some line :: lines =>
    if Text.allBlank line.toList then runLines format lines
    else
      let scan := scan line
      (runLines format lines).after (Listing.render facilities.style format scan.tokens)
        ((scanEvents scan).map .log ++ faultReports scan.faults)

def runOptions (options : Options) (files : Files) (input : List UInt8) : Outcome :=
  let outcome := match options.script with
    | some path => runScript facilities options files path
    | none => runLines facilities options.format (facilities.lines input)
  outcome.after "" [.log (.argumentsRead options)]

def run (arguments : List String) (files : Files) (input : List UInt8) : Outcome :=
  match CommandLine.parse arguments with
  | .error refusal => ⟨.usage, "", [.refusal refusal]⟩
  | .ok (.help long) =>
    ⟨.success, if long then CommandLine.longHelp else CommandLine.shortHelp, []⟩
  | .ok .version => ⟨.success, CommandLine.versionText, []⟩
  | .ok (.run options) => runOptions facilities options files input

end Session

end ScriptLexer
