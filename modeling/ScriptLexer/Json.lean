/-!
JSON values and their indented text. An array or an object with members takes a
line for each of them, two spaces further in than the bracket that opens it; an
empty one is two brackets. In a string only the quote, the backslash and the
control characters below the space are escaped, so the text of a value holds
whatever else the value holds.
-/

namespace ScriptLexer

/-- A JSON value. A number is kept as it is written. -/
inductive Json where
  | null
  | number (written : List Char)
  | string (value : String)
  | array (items : List Json)
  | object (members : List (String × Json))

namespace Json

def escape (c : Char) : List Char :=
  if c = '"' then ['\\', '"']
  else if c = '\\' then ['\\', '\\']
  else if c = '\x08' then ['\\', 'b']
  else if c = '\x0C' then ['\\', 'f']
  else if c = '\n' then ['\\', 'n']
  else if c = '\r' then ['\\', 'r']
  else if c = '\t' then ['\\', 't']
  else if c.toNat < 0x20 then
    ['\\', 'u', '0', '0', Nat.digitChar (c.toNat / 16), Nat.digitChar (c.toNat % 16)]
  else [c]

def quote (text : List Char) : List Char :=
  '"' :: text.flatMap escape ++ ['"']

def lineAt (depth : Nat) : List Char :=
  '\n' :: List.replicate (2 * depth) ' '

mutual

def pretty (depth : Nat) : Json → List Char
  | null => ['n', 'u', 'l', 'l']
  | number written => written
  | string value => quote value.toList
  | array [] => ['[', ']']
  | array (item :: items) =>
    '[' :: lineAt (depth + 1) ++ item.pretty (depth + 1) ++ prettyItems (depth + 1) items
      ++ lineAt depth ++ [']']
  | object [] => ['\x7b', '\x7d']
  | object ((name, value) :: members) =>
    '\x7b' :: lineAt (depth + 1) ++ quote name.toList ++ [':', ' '] ++ value.pretty (depth + 1)
      ++ prettyMembers (depth + 1) members ++ lineAt depth ++ ['\x7d']

def prettyItems (depth : Nat) : List Json → List Char
  | [] => []
  | item :: items => ',' :: lineAt depth ++ item.pretty depth ++ prettyItems depth items

def prettyMembers (depth : Nat) : List (String × Json) → List Char
  | [] => []
  | (name, value) :: members =>
    ',' :: lineAt depth ++ quote name.toList ++ [':', ' '] ++ value.pretty depth
      ++ prettyMembers depth members

end

end Json

end ScriptLexer
