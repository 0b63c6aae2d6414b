import ScriptLexer.Number.Binary64
import ScriptLexer.Number.Numeral

/-!
Reading numbers from text. An integer is put together in 64 bits, digit by digit, and
each of the two operations that a digit takes is refused if its result does not fit; so
the reading ends with the first digit that makes the integer too great. A floating-point
number is rounded once, from all of its digits, and comes out infinite if it is too great.
Signs, exponents and the names of special values do not occur in the texts read here.
-/

namespace ScriptLexer.Number

inductive IntegerError where
  | empty
  | invalidDigit
  | overflow
  deriving DecidableEq

namespace Integer64

def ofInt? (n : Int) : Option Int64 :=
  let word := Int64.ofInt n
  if word.toInt = n then some word else none

def mul? (a b : Int64) : Option Int64 :=
  ofInt? (a.toInt * b.toInt)

def add? (a b : Int64) : Option Int64 :=
  ofInt? (a.toInt + b.toInt)

def push? (value : Int64) (digit : Char) : Option Int64 := do
  let tens ← mul? value 10
  add? tens (Int64.ofNat (digit.toNat - '0'.toNat))

def readDigits (value : Int64) : List Char → Except IntegerError Int64
  | [] => .ok value
  | c :: text =>
    if c.isDigit then
      match push? value c with
      | some value => readDigits value text
      | none => .error .overflow
    else .error .invalidDigit

def ofText (text : List Char) : Except IntegerError Int64 :=
  if text.isEmpty then .error .empty else readDigits 0 text

end Integer64

namespace Binary64

def infinity : Binary64 := ⟨UInt64.ofNat infinityBits⟩

/-- The digits behind the point, where a text goes on behind its first digits. A point
with nothing behind it has none. -/
def fraction? : List Char → Option (List Char)
  | [] => some []
  | c :: text => if c = '.' && text.all Char.isDigit then some text else none

/-- The number nearest to the decimal that a text stands for: digits around one point
at most, and at least one of them. -/
def ofText? (text : List Char) : Option Binary64 :=
  let whole := text.takeWhile Char.isDigit
  match fraction? (text.dropWhile Char.isDigit) with
  | none => none
  | some fraction =>
    if whole.isEmpty && fraction.isEmpty then none
    else
      let value := ofQuotient? (valueOfDigits (whole ++ fraction)) (Nat.pow 10 fraction.length)
      some (value.getD infinity)

end Binary64

end ScriptLexer.Number
