import ScriptLexer.Session

/-!
The program: it gathers its arguments, its script or its input, and the filter of
log lines, runs a session, and writes the outcome.
-/

namespace ScriptLexer.Main

partial def readAll (stream : IO.FS.Stream) (taken : ByteArray) : IO ByteArray := do
  let chunk ← stream.read 65536
  if chunk.isEmpty then return taken else readAll stream (taken ++ chunk)

/-- What the number of a system error stands for; some are given negated. -/
def readError (code : UInt32) (details : String) : ReadError :=
  match min code (0 - code) with
  | 20 => .notADirectory
  | 21 => .isADirectory
  | 36 => .nameTooLong
  | number => .other (details ++ " (os error " ++ toString number ++ ")")

def readFile (path : String) : IO (Except ReadError (List UInt8)) := do
  if path.toList.contains '\x00' then return .error .nulInName
  try
    return .ok (← IO.FS.readBinFile path).toList
  catch
    | .noFileOrDirectory .. => return .error .missing
    | .inappropriateType _ code details => return .error (readError code details)
    | .invalidArgument _ code details => return .error (readError code details)
    | .permissionDenied _ code details => return .error (readError code details)
    | error => return .error (.other (toString error))

def gather (options : Options) : IO (Except ReadError (List UInt8) × List UInt8) := do
  match options.script with
  | some path => return (← readFile path, [])
  | none => return (.error .missing, (← readAll (← IO.getStdin) .empty).toList)

def program (arguments : List String) : IO UInt32 := do
  let (file, input) ← match CommandLine.parse arguments with
    | .ok (.run options) => gather options
    | _ => pure (.error .missing, [])
  let outcome := Session.run .usual arguments (fun _ => file) input
  let filter := ((← IO.getEnv "RUST_LOG").map Log.Filter.ofText).getD []
  IO.print outcome.output
  IO.eprint (outcome.noticeText .usual filter)
  return UInt32.ofNat outcome.status.code

end ScriptLexer.Main

def main (arguments : List String) : IO UInt32 :=
  ScriptLexer.Main.program arguments
