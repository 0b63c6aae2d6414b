import ScriptLexer.Diagnostic
import ScriptLexer.Number.Numeral

/-!
A drawing of a diagnostic: its code, its message, and the line of the faulty text between
its neighbours, with a mark and a note under that text. Every character counts as one column,
and a faulty text that goes on behind its line is marked as far as that line goes.
-/

namespace ScriptLexer.Diagnostic

/-- The lines of the script, without an empty one at the end. -/
def scriptLines (d : Diagnostic) : List (List Char) :=
  let pieces := Text.pieces '\n' d.script.toList
  if pieces.getLast? = some [] then pieces.dropLast else pieces

def margin (width : Nat) (number : List Char) (bar : Char) : List Char :=
  ' ' :: List.replicate (width - number.length) ' ' ++ number ++ [' ', bar, ' ']

/-- What stands under the line of the faulty text: a mark, and the note of the label. -/
def underline (d : Diagnostic) (width : Nat) : List Char :=
  let column := (d.before.reverse.takeWhile (· ≠ '\n')).length
  let size := (d.text.takeWhile (· ≠ '\n')).length
  let mark := List.replicate (size / 2) '─' ++ '┬' :: List.replicate (size - size / 2 - 1) '─'
  let notes := d.fault.labels.flatMap fun label => "╰── ".toList ++ label.note.toList
  margin width [] '·' ++ List.replicate column ' ' ++ mark ++ ['\n'] ++
    margin width [] '·' ++ List.replicate (column + size / 2) ' ' ++ notes ++ ['\n']

def excerpt (d : Diagnostic) : List Char :=
  let line := Text.lineFeeds d.before
  let first := line - 1
  let shown := (d.scriptLines.drop first).take (line + 2 - first)
  let width := (Number.digitsOf (first + shown.length)).length
  let place := Number.digitsOf (d.place.line + 1) ++ ':' :: Number.digitsOf (d.place.column + 1)
  let edge := List.replicate (width + 2) ' '
  let body := (shown.zipIdx first).flatMap fun (text, index) =>
    margin width (Number.digitsOf (index + 1)) '│' ++ text ++ ['\n'] ++
      if index = line then d.underline width else []
  edge ++ "╭─[".toList ++ d.name.toList ++ ':' :: place ++ "]\n".toList ++ body ++
    edge ++ "╰────\n".toList

def draw (d : Diagnostic) : String :=
  Fault.code ++ "\n\n  × " ++ d.fault.message ++ "\n" ++ String.ofList d.excerpt

end ScriptLexer.Diagnostic
