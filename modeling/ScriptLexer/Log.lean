import ScriptLexer.CommandLine
import ScriptLexer.Fault
import ScriptLexer.Text.Quoted

/-!
Log lines. An event belongs to a target and has a level; a filter of directives
decides which events are shown. Of the directives whose target begins the
event's target the longest counts, and without any the event is not shown.
-/

namespace ScriptLexer.Log

inductive Level where
  | error
  | warn
  | info
  | debug
  | trace
  deriving DecidableEq

def Level.rank : Level → Nat
  | error => 1
  | warn => 2
  | info => 3
  | debug => 4
  | trace => 5

def Level.text : Level → String
  | error => "ERROR"
  | warn => " WARN"
  | info => " INFO"
  | debug => "DEBUG"
  | trace => "TRACE"

/-- Shows events of a target up to a rank; rank zero shows none. -/
structure Directive where
  target : String
  rank : Nat
  deriving DecidableEq

abbrev Filter := List Directive

def rankOf? (text : String) : Option Nat :=
  [("off", 0), ("error", 1), ("warn", 2), ("info", 3), ("debug", 4), ("trace", 5),
   ("0", 0), ("1", 1), ("2", 2), ("3", 3), ("4", 4), ("5", 5)].lookup
    (String.ofList (text.toList.map Char.toLower))

/-- Reads a directive: a level for every target, a target with its level, or a
target of which everything is shown. -/
def Directive.ofText? (text : List Char) : Option Directive :=
  match Text.splitAtMark? ['='] text with
  | none =>
    match rankOf? (String.ofList text) with
    | some rank => some ⟨"", rank⟩
    | none => some ⟨String.ofList text, Level.trace.rank⟩
  | some ([], _) => none
  | some (target, []) => some ⟨String.ofList target, Level.trace.rank⟩
  | some (target, level) => (rankOf? (String.ofList level)).map (⟨String.ofList target, ·⟩)

namespace Filter

/-- Reads directives between commas. With none, errors of every target are shown. -/
def ofText (text : String) : Filter :=
  match (Text.pieces ',' text.toList).filterMap fun piece =>
      if piece.isEmpty then none else Directive.ofText? piece with
  | [] => [⟨"", Level.error.rank⟩]
  | directives => directives

/-- The directive that counts for a target: the longest that begins it, and of two
for one target the later. -/
def directive? (filter : Filter) (target : String) : Option Directive :=
  (filter.filter fun d => d.target.toList.isPrefixOf target.toList).foldl
    (fun best d =>
      match best with
      | some b => if b.target.length ≤ d.target.length then some d else some b
      | none => some d)
    none

def shows (filter : Filter) (target : String) (level : Level) : Bool :=
  match filter.directive? target with
  | some d => level.rank ≤ d.rank
  | none => false

end Filter

inductive Event where
  | argumentsRead (options : Options)
  | scriptRead (path : String) (size : Nat)
  | tokenAdded (token : Token)
  | faultFound (fault : Fault)
  | scanCompleted (tokens faults lines : Nat)
  deriving DecidableEq

namespace Event

def level : Event → Level
  | tokenAdded _ => .trace
  | _ => .debug

def target : Event → String
  | argumentsRead _ => "glox"
  | scriptRead .. => "glox::source"
  | _ => "glox::scanner::lexer"

def context? : Event → Option String
  | argumentsRead _ => none
  | scriptRead path _ => some ("read_source\x7bpath=" ++ path ++ "\x7d")
  | _ => some "scan"

def formatText : Listing.Format → String
  | .text => "Text"
  | .json => "Json"

def optionsText (options : Options) : String :=
  let script := match options.script with
    | some name => "Some(" ++ Text.quoted name ++ ")"
    | none => "None"
  "Cli \x7b script: " ++ script ++ ", dump_tokens: " ++ toString options.listTokens
    ++ ", format: " ++ formatText options.format ++ ", fancy: " ++ toString options.labelled
    ++ " \x7d"

def text : Event → String
  | argumentsRead options => "parsed arguments cli=" ++ optionsText options
  | scriptRead _ size => "read source bytes=" ++ toString size
  | tokenAdded token =>
    "token kind=" ++ token.kind.name ++ " lexeme=" ++ token.lexeme ++ " line="
      ++ toString token.line
  | faultFound fault => "lexical error error=" ++ fault.message
  | scanCompleted tokens faults lines =>
    "scan complete tokens=" ++ toString tokens ++ " errors=" ++ toString faults ++ " lines="
      ++ toString lines

def line (event : Event) : String :=
  let context := match event.context? with
    | some context => context ++ ": "
    | none => ""
  event.level.text ++ " " ++ context ++ event.target ++ ": " ++ event.text ++ "\n"

end Event

end ScriptLexer.Log
