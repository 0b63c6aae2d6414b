import ScriptLexer.Main
import ScriptLexer.Proofs.Appending
import ScriptLexer.Proofs.Closing
import ScriptLexer.Proofs.Juxtaposition
import ScriptLexer.Proofs.Loop
import ScriptLexer.Proofs.Resumption
import ScriptLexer.Proofs.Tiling
import ScriptLexer.Proofs.NearestNumber
import ScriptLexer.Proofs.WrittenNumber
import ScriptLexer.Proofs.JsonListing
import ScriptLexer.Proofs.TextListing
import ScriptLexer.Proofs.Prompting
import ScriptLexer.Proofs.LineByLine
import ScriptLexer.Proofs.CorrectRounding
import ScriptLexer.Proofs.NumberLexemes
import ScriptLexer.Proofs.BlankedComments
import ScriptLexer.Proofs.ScriptRun
import ScriptLexer.Proofs.InsertedBlanks
import ScriptLexer.Proofs.LineEndings
import ScriptLexer.Proofs.Labels
import ScriptLexer.Proofs.CursorCalls
