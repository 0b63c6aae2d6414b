import ScriptLexer.Number.Rounding

/-!
Binary floating-point numbers of 64 bits, as bit patterns. A finite magnitude
is `significand * 2 ^ scale` units of `2 ^ -1074`, the least positive magnitude,
so all arithmetic on them is arithmetic of natural numbers.

The bit patterns of the non-negative numbers are in the order of their values.
Hence a quotient is rounded in one formula: with `scale` the least exponent at
which the quotient has at most 53 significant bits, the pattern of the result is
`scale * 2 ^ 52` plus the rounded significand. A significand that rounds up to
`2 ^ 53` carries into the exponent, and a value too large for the format gives a
pattern that is not below that of infinity.
-/

namespace ScriptLexer.Number

/-- A floating-point number of 64 bits: a sign bit, 11 bits of exponent and 52
bits of fraction. -/
structure Binary64 where
  bits : UInt64
  deriving DecidableEq

namespace Binary64

def infinityBits : Nat := 2047 * Nat.pow 2 52

def magnitude (x : Binary64) : Nat := x.bits.toNat % Nat.pow 2 63

def isNegative (x : Binary64) : Bool := Nat.pow 2 63 ≤ x.bits.toNat

def isNaN (x : Binary64) : Bool := infinityBits < x.magnitude

def isInfinite (x : Binary64) : Bool := x.magnitude == infinityBits

def isFinite (x : Binary64) : Bool := x.magnitude < infinityBits

def exponentField (x : Binary64) : Nat := x.magnitude / Nat.pow 2 52

def fraction (x : Binary64) : Nat := x.magnitude % Nat.pow 2 52

/-- The significand of a finite number, with the leading bit that the pattern
leaves out. -/
def significand (x : Binary64) : Nat :=
  if x.exponentField = 0 then x.fraction else Nat.pow 2 52 + x.fraction

/-- The exponent of a finite number, counted from that of the least magnitude. -/
def scale (x : Binary64) : Nat := x.exponentField - 1

/-- The magnitude of a finite number in units of `2 ^ -1074`. -/
def units (x : Binary64) : Nat := x.significand * Nat.pow 2 x.scale

/-- The pattern of the number nearest to `num / den`, a half going to the even
significand, as if the exponent had no upper bound. -/
def nearestBits (num den : Nat) : Nat :=
  let scaled := num * Nat.pow 2 1074
  let scale := Nat.log2 (scaled / den) - 52
  scale * Nat.pow 2 52 + roundHalfEven scaled (den * Nat.pow 2 scale)

def ofQuotient? (num den : Nat) : Option Binary64 :=
  let pattern := nearestBits num den
  if pattern < infinityBits then some ⟨UInt64.ofNat pattern⟩ else none

end Binary64

end ScriptLexer.Number
