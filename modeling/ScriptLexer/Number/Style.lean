import ScriptLexer.Number.Numeral
import ScriptLexer.Number.Shortest

/-!
Writing a finite floating-point number: its shortest decimal, positional where
the style says so and with an exponent elsewhere. Both forms read back to the
same bits.
-/

namespace ScriptLexer.Number

structure Style where
  /-- The least decimal exponent that is written positionally. -/
  leastPositional : Int
  /-- The greatest decimal exponent that is written positionally. -/
  greatestPositional : Int
  plusSign : Bool
  tie : Tie
  deriving DecidableEq

namespace Style

/-- Digits with the decimal point after the digit of weight `10 ^ exponent`,
where `exponent` is the weight of the first digit. At least one digit stands on
each side of the point. -/
def positional (digits : List Char) : Int → List Char
  | .ofNat e =>
    if digits.length ≤ e + 1 then
      digits ++ List.replicate (e + 1 - digits.length) '0' ++ ['.', '0']
    else digits.take (e + 1) ++ '.' :: digits.drop (e + 1)
  | .negSucc e => '0' :: '.' :: List.replicate e '0' ++ digits

def scientific (plusSign : Bool) (digits : List Char) (exponent : Int) : List Char :=
  let mantissa := match digits with
    | first :: second :: others => first :: '.' :: second :: others
    | few => few
  let sign := if plusSign && 0 ≤ exponent then ['+'] else []
  mantissa ++ 'e' :: sign ++ numeralOf exponent

def decimal (style : Style) (d : Decimal) : List Char :=
  let digits := digitsOf d.significand
  let exponent := d.exponent + digits.length - 1
  if style.leastPositional ≤ exponent ∧ exponent ≤ style.greatestPositional then
    positional digits exponent
  else scientific style.plusSign digits exponent

/-- A finite number in this style; zero keeps its sign. -/
def write (style : Style) (x : Binary64) : List Char :=
  let sign := if x.isNegative then ['-'] else []
  if x.magnitude = 0 then sign ++ ['0', '.', '0']
  else sign ++ style.decimal (shortest style.tie x)

end Style

end ScriptLexer.Number
