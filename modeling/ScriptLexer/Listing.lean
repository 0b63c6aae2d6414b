import ScriptLexer.Json
import ScriptLexer.Number.Style
import ScriptLexer.Token

/-!
Token listings: one line of text for each token, or one JSON array. The text
shows lexemes and values as they are; the JSON listing quotes them and adds the
span, so it can be read back.
-/

namespace ScriptLexer

namespace Listing

inductive Format where
  | text
  | json
  deriving DecidableEq

/-- Values in the text listing are positional from one ten-thousandth up to
sixteen digits before the point; a tie goes up. -/
def textStyle : Number.Style :=
  { leastPositional := -4, greatestPositional := 15, plusSign := false, tie := .up }

/-- The usual style of values in the JSON listing. They are positional one place further
down, a positive exponent has its sign, and a tie goes to the even digit. -/
def jsonStyle : Number.Style :=
  { leastPositional := -5, greatestPositional := 15, plusSign := true, tie := .even }

def floatText (x : Number.Binary64) : List Char :=
  if x.isNaN then ['N', 'a', 'N']
  else if x.isInfinite then
    if x.isNegative then ['-', 'i', 'n', 'f'] else ['i', 'n', 'f']
  else textStyle.write x

def literalText : Literal → List Char
  | .text value => value.toList
  | .integer value => Number.numeralOf value
  | .float value => floatText value

def tokenText (token : Token) : List Char :=
  let literal := match token.literal with
    | some value => ' ' :: literalText value
    | none => []
  token.kind.name.toList ++ [' ', '\''] ++ token.lexeme.toList ++ ['\''] ++ literal
    ++ " line ".toList ++ Number.digitsOf token.line

/-- A literal in the JSON listing. JSON has no infinities and no NaN. -/
def literalJson (style : Number.Style) : Literal → Json
  | .text value => .string value
  | .integer value => .number (Number.numeralOf value)
  | .float value => if value.isFinite then .number (style.write value) else .null

def tokenJson (style : Number.Style) (token : Token) : Json :=
  .object [
    ("kind", .string token.kind.name),
    ("lexeme", .string token.lexeme),
    ("literal", (token.literal.map (literalJson style)).getD .null),
    ("line", .number (Number.digitsOf token.line)),
    ("span", .object [
      ("offset", .number (Number.digitsOf token.span.offset)),
      ("len", .number (Number.digitsOf token.span.length))])]

/-- The listing of tokens; every line of it ends in a line feed. The style is that of the
values in a JSON listing. -/
def characters (style : Number.Style) (format : Format) (tokens : List Token) : List Char :=
  match format with
  | .text => tokens.flatMap fun token => tokenText token ++ ['\n']
  | .json => (Json.array (tokens.map (tokenJson style))).pretty 0 ++ ['\n']

def render (style : Number.Style) (format : Format) (tokens : List Token) : String :=
  String.ofList (characters style format tokens)

end Listing

end ScriptLexer
