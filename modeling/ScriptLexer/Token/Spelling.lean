import ScriptLexer.Token.Kind

/-!
How tokens are spelled: the marks of one character, the operators that a
following `=` changes, and the reserved words. Letters and digits are those of
ASCII, here and in the whole scanner.
-/

namespace ScriptLexer

namespace Kind

def ofMark? : Char → Option Kind
  | '(' => some leftParen
  | ')' => some rightParen
  | '\x7b' => some leftBrace
  | '\x7d' => some rightBrace
  | ',' => some comma
  | '.' => some dot
  | '-' => some minus
  | '+' => some plus
  | ';' => some semicolon
  | '*' => some star
  | _ => none

/-- The kinds of an operator with and without a following `=`. -/
structure OperatorPair where
  withEqual : Kind
  alone : Kind
  deriving DecidableEq

def ofOperator? : Char → Option OperatorPair
  | '!' => some ⟨bangEqual, bang⟩
  | '=' => some ⟨equalEqual, equal⟩
  | '<' => some ⟨lessEqual, less⟩
  | '>' => some ⟨greaterEqual, greater⟩
  | _ => none

end Kind

namespace Keyword

/-- The spellings of the reserved words. The last two are second spellings of
`and` and `or`; they are not words, so the scanner never looks them up. -/
def spellings : List (String × Keyword) :=
  [("and", and_), ("or", or_), ("class", class_), ("else", else_), ("false", false_),
   ("for", for_), ("foreach", foreach_), ("function", function_), ("if", if_),
   ("null", null_), ("print", print_), ("return", return_), ("super", super_),
   ("this", this_), ("true", true_), ("var", var_), ("while", while_),
   ("&&", and_), ("||", or_)]

def ofSpelling? (word : String) : Option Keyword :=
  spellings.lookup word

end Keyword

def isWordStart (c : Char) : Bool :=
  c.isAlpha || c == '_'

def isWordPart (c : Char) : Bool :=
  c.isAlphanum || c == '_'

def Kind.ofWord (word : String) : Kind :=
  match Keyword.ofSpelling? word with
  | some reserved => .keyword reserved
  | none => .identifier

end ScriptLexer
