/-!
The kinds of token. Keywords form a type of their own, so that being a keyword
is a matter of shape. Each kind has a name in capitals, under which listings
and log lines show it.
-/

namespace ScriptLexer

inductive Keyword where
  | and_ | class_ | else_ | false_ | function_ | for_ | foreach_ | if_ | null_
  | or_ | print_ | return_ | super_ | this_ | true_ | var_ | while_
  deriving DecidableEq

namespace Keyword

def name : Keyword → String
  | and_ => "AND"
  | class_ => "CLASS"
  | else_ => "ELSE"
  | false_ => "FALSE"
  | function_ => "FUNCTION"
  | for_ => "FOR"
  | foreach_ => "FOREACH"
  | if_ => "IF"
  | null_ => "NULL"
  | or_ => "OR"
  | print_ => "PRINT"
  | return_ => "RETURN"
  | super_ => "SUPER"
  | this_ => "THIS"
  | true_ => "TRUE"
  | var_ => "VAR"
  | while_ => "WHILE"

def all : List Keyword :=
  [and_, class_, else_, false_, function_, for_, foreach_, if_, null_, or_, print_,
   return_, super_, this_, true_, var_, while_]

theorem mem_all (word : Keyword) : word ∈ all := by
  cases word <;> decide

end Keyword

inductive Kind where
  | leftParen | rightParen | leftBrace | rightBrace
  | comma | dot | minus | plus | semicolon | slash | star
  | bang | bangEqual | equal | equalEqual
  | greater | greaterEqual | less | lessEqual
  | identifier | string | number | integerNumber
  | keyword (word : Keyword)
  | endOfText
  deriving DecidableEq

namespace Kind

def name : Kind → String
  | leftParen => "LEFT_PAREN"
  | rightParen => "RIGHT_PAREN"
  | leftBrace => "LEFT_BRACE"
  | rightBrace => "RIGHT_BRACE"
  | comma => "COMMA"
  | dot => "DOT"
  | minus => "MINUS"
  | plus => "PLUS"
  | semicolon => "SEMICOLON"
  | slash => "SLASH"
  | star => "STAR"
  | bang => "BANG"
  | bangEqual => "BANG_EQUAL"
  | equal => "EQUAL"
  | equalEqual => "EQUAL_EQUAL"
  | greater => "GREATER"
  | greaterEqual => "GREATER_EQUAL"
  | less => "LESS"
  | lessEqual => "LESS_EQUAL"
  | identifier => "IDENTIFIER"
  | string => "STRING"
  | number => "NUMBER"
  | integerNumber => "INTEGER_NUMBER"
  | keyword word => word.name
  | endOfText => "EOF"

def all : List Kind :=
  [leftParen, rightParen, leftBrace, rightBrace, comma, dot, minus, plus, semicolon,
   slash, star, bang, bangEqual, equal, equalEqual, greater, greaterEqual, less,
   lessEqual, identifier, string, number, integerNumber]
    ++ Keyword.all.map keyword ++ [endOfText]

theorem mem_all (kind : Kind) : kind ∈ all := by
  cases kind with
  | keyword word => simp [all, Keyword.mem_all word]
  | _ => decide

def ofName? (name : String) : Option Kind :=
  all.find? (·.name == name)

theorem ofName?_name (kind : Kind) : ofName? kind.name = some kind := by
  have hall : all.all (fun kind => ofName? kind.name == some kind) = true := by
    decide +kernel
  exact eq_of_beq (List.all_eq_true.1 hall kind (mem_all kind))

theorem name_injective {first second : Kind} (h : first.name = second.name) : first = second := by
  have hfound := ofName?_name first
  rw [h, ofName?_name second] at hfound
  exact (Option.some.inj hfound).symm

/-- Tokens of these kinds always carry a literal, and no others do. -/
def isLiteral : Kind → Bool
  | string | number | integerNumber => true
  | _ => false

def isKeyword : Kind → Bool
  | keyword _ => true
  | _ => false

end Kind

end ScriptLexer
