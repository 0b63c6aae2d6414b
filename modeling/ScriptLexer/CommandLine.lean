import ScriptLexer.Listing
import ScriptLexer.Text.Split
import ScriptLexer.Text.Visible

/-!
The command line. Arguments are read from left to right, and the first that is
wrong ends the reading; so does a wish for help or for the version.

A script name, and a value that stands as an argument of its own, are held back
until the next argument has been recognised, and are looked at only then. So an
argument that nobody expects is refused before a wrong value in front of it.
-/

namespace ScriptLexer

structure Options where
  /-- The script; without one, the prompt is run. -/
  script : Option String
  listTokens : Bool
  format : Listing.Format
  /-- Whether faults are shown with labels into the script. -/
  labelled : Bool
  deriving DecidableEq

namespace CommandLine

inductive Switch where
  | listTokens
  | labelled
  deriving DecidableEq

def Switch.text : Switch → String
  | listTokens => "--dump-tokens"
  | labelled => "--fancy"

inductive Slot where
  | script
  | format
  deriving DecidableEq

def Slot.text : Slot → String
  | script => "[SCRIPT]"
  | format => "--format <FORMAT>"

inductive Refusal where
  | unexpectedArgument (argument : String)
  | unexpectedValue (value flag : String)
  | invalidFormat (value : String)
  | missingValue (slot : Slot)
  | repeated (argument : String)
  deriving DecidableEq

/-- The line that says why. Of an argument it shows the visible part. -/
def Refusal.message : Refusal → String
  | unexpectedArgument argument =>
    "error: unexpected argument '" ++ Text.visible argument ++ "' found"
  | unexpectedValue value flag =>
    "error: unexpected value '" ++ Text.visible value ++ "' for '" ++ flag
      ++ "' found; no more were expected"
  | invalidFormat value =>
    "error: invalid value '" ++ Text.visible value ++ "' for '" ++ Slot.format.text ++ "'"
  | missingValue slot =>
    "error: a value is required for '" ++ slot.text ++ "' but none was supplied"
  | repeated argument =>
    "error: the argument '" ++ argument ++ "' cannot be used multiple times"

inductive Request where
  | help (long : Bool)
  | version
  | run (options : Options)
  deriving DecidableEq

/-- What is held back: a script name, or the format, whose value may still be
missing. -/
inductive Held where
  | script (name : String)
  | format (value : Option String)
  deriving DecidableEq

structure Progress where
  script : Option String
  listTokens : Bool
  format : Option Listing.Format
  labelled : Bool
  held : Option Held
  /-- Whether every argument from here on names a script. -/
  namesOnly : Bool
  deriving DecidableEq

namespace Progress

def start : Progress :=
  ⟨none, false, none, false, none, false⟩

def setFormat (p : Progress) (value : String) : Except Refusal Progress :=
  match p.format, value with
  | some _, _ => .error (.repeated Slot.format.text)
  | none, "text" => .ok { p with format := some .text }
  | none, "json" => .ok { p with format := some .json }
  | none, "" => .error (.missingValue .format)
  | none, value => .error (.invalidFormat value)

def settle (p : Progress) : Except Refusal Progress :=
  match p.held with
  | none => .ok p
  | some (.script "") => .error (.missingValue .script)
  | some (.script name) => .ok { p with script := some name, held := none }
  | some (.format none) => .error (.missingValue .format)
  | some (.format (some value)) => { p with held := none }.setFormat value

def hasScript (p : Progress) : Bool :=
  p.script.isSome || (p.held matches some (.script _))

def name (p : Progress) (argument : String) : Except Refusal Progress :=
  if p.hasScript then .error (.unexpectedArgument argument)
  else do
    let p ← p.settle
    return { p with held := some (.script argument) }

def switch (p : Progress) (s : Switch) : Except Refusal Progress := do
  let p ← p.settle
  match s with
  | .listTokens =>
    if p.listTokens then throw (.repeated s.text) else return { p with listTokens := true }
  | .labelled =>
    if p.labelled then throw (.repeated s.text) else return { p with labelled := true }

def finish (p : Progress) : Except Refusal Request := do
  let p ← p.settle
  return .run ⟨p.script, p.listTokens, p.format.getD .text, p.labelled⟩

end Progress

structure Flag where
  name : String
  value : Option String
  deriving DecidableEq

def Flag.ofText (text : List Char) : Flag :=
  match Text.splitAtMark? ['='] text with
  | some (name, value) => ⟨String.ofList name, some (String.ofList value)⟩
  | none => ⟨String.ofList text, none⟩

/-- Reads a flag: how the reading goes on, or a request that ends it. -/
def readFlag (p : Progress) (flag : Flag) : Except Refusal (Progress ⊕ Request) :=
  let written := "--" ++ flag.name
  match flag.name, flag.value with
  | "format", some value => do return .inl (← (← p.settle).setFormat value)
  | "format", none => do return .inl { (← p.settle) with held := some (.format none) }
  | "dump-tokens", none => do return .inl (← p.switch .listTokens)
  | "fancy", none => do return .inl (← p.switch .labelled)
  | "help", none => do
    let _ ← p.settle
    return .inr (.help true)
  | "version", none => do
    let _ ← p.settle
    return .inr .version
  | name, some value =>
    if ["dump-tokens", "fancy", "help", "version"].contains name then
      .error (.unexpectedValue value written)
    else .error (.unexpectedArgument written)
  | _, none => .error (.unexpectedArgument written)

/-- Reads letters behind one hyphen; the first of them decides. -/
def readLetter (p : Progress) (letter : Char) : Except Refusal Request :=
  match letter with
  | 'h' => do
    let _ ← p.settle
    return .help false
  | 'V' => do
    let _ ← p.settle
    return .version
  | letter => .error (.unexpectedArgument ("-" ++ String.singleton letter))

def read (p : Progress) : List String → Except Refusal Request
  | [] => p.finish
  | argument :: others =>
    if p.namesOnly then do read (← p.name argument) others
    else
      match argument.toList with
      | ['-', '-'] => read { p with namesOnly := true } others
      | '-' :: '-' :: text => do
        match ← readFlag p (.ofText text) with
        | .inl p => read p others
        | .inr request => return request
      | '-' :: letter :: _ => readLetter p letter
      | _ =>
        match p.held with
        | some (.format none) => read { p with held := some (.format (some argument)) } others
        | _ => do read (← p.name argument) others

def parse (arguments : List String) : Except Refusal Request :=
  read .start arguments

end CommandLine

end ScriptLexer
