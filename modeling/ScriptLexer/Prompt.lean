import ScriptLexer.Report
import ScriptLexer.Text.Blank
import ScriptLexer.Text.Utf8

/-!
Lines of the prompt. A line ends at a line feed, and one carriage return before
it belongs to the ending. What follows the last line feed is a line too unless
it is empty, and it keeps a carriage return at its end.
-/

namespace ScriptLexer.Prompt

def lineFeed : UInt8 := 10

def carriageReturn : UInt8 := 13

/-- Drops a carriage return from the front of a line that is held backwards. -/
def dropReturn : List UInt8 → List UInt8
  | [] => []
  | byte :: line => if byte = carriageReturn then line else byte :: line

/-- The lines of the input, where `taken` holds the line so far backwards. -/
def linesFrom (taken : List UInt8) : List UInt8 → List (List UInt8)
  | [] => if taken.isEmpty then [] else [taken.reverse]
  | byte :: input =>
    if byte = lineFeed then (dropReturn taken).reverse :: linesFrom [] input
    else linesFrom (byte :: taken) input

def lines (input : List UInt8) : List (List UInt8) :=
  linesFrom [] input

def deliver (input : List UInt8) : List (Option String) :=
  (lines input).map Text.decodeUtf8?

def unreadableLine (detail : String) : Report :=
  ⟨"read line", some detail⟩

/-- The usual detail of an unreadable line: it names the failure again, with the chain of
causes under it. -/
def causes : String :=
  "read line\n\nCaused by:\n    0: stream did not contain valid UTF-8\n"
    ++ "    1: stream did not contain valid UTF-8"

end ScriptLexer.Prompt
