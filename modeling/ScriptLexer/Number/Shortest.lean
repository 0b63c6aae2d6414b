import ScriptLexer.Number.Binary64

/-!
The shortest decimal that reads back to a given floating-point number. The reals
that round to the number form an interval. A grid of step `10 ^ g` has a point
in it only if one of the two grid points next to the number itself lies in it,
so the search tests these two, from the coarsest grid down. The first grid with
a hit has the fewest digits; of two hits the nearer is taken, and a tie is
decided by the caller.
-/

namespace ScriptLexer.Number

inductive Tie where
  | up
  | even
  deriving DecidableEq

/-- The decimal `significand * 10 ^ exponent`. -/
structure Decimal where
  significand : Nat
  exponent : Int
  deriving DecidableEq

/-- The reals that round to one number, and the number itself: all three in
units of `2 ^ -1076`. The ends belong to the interval if `closed`. -/
structure RoundingInterval where
  low : Nat
  value : Nat
  high : Nat
  closed : Bool
  deriving DecidableEq

namespace RoundingInterval

/-- The interval of a finite number's magnitude. The gap below a power of two is
half the gap above it, except at the least exponent. -/
def ofBinary64 (x : Binary64) : RoundingInterval :=
  let unit := Nat.pow 2 x.scale
  let below := if x.fraction = 0 ∧ 1 < x.exponentField then 1 else 2
  { low := (4 * x.significand - below) * unit
    value := 4 * x.significand * unit
    high := (4 * x.significand + 2) * unit
    closed := x.significand % 2 = 0 }

def unitsPerOne : Nat := Nat.pow 2 1076

def contains (r : RoundingInterval) (num den : Nat) : Bool :=
  if r.closed then r.low * den ≤ num && num ≤ r.high * den
  else r.low * den < num && num < r.high * den

/-- The multiple of `10 ^ g` in the interval that is nearest to its number, if
the interval holds any. -/
def nearestOnGrid? (r : RoundingInterval) (tie : Tie) (g : Int) : Option Nat :=
  let step := Nat.pow 10 g.toNat * unitsPerOne
  let den := Nat.pow 10 (-g).toNat
  let lower := r.value * den / step
  let upper := lower + 1
  match r.contains (lower * step) den, r.contains (upper * step) den with
  | false, false => none
  | true, false => some lower
  | false, true => some upper
  | true, true =>
    let twice := 2 * (r.value * den)
    let middle := (lower + upper) * step
    if twice < middle then some lower
    else if middle < twice then some upper
    else match tie with
      | .up => some upper
      | .even => some (if lower % 2 = 0 then lower else upper)

def search (r : RoundingInterval) (tie : Tie) : Nat → Int → Option Decimal
  | 0, _ => none
  | count + 1, g =>
    match r.nearestOnGrid? tie g with
    | some n => some ⟨n, g⟩
    | none => r.search tie count (g - 1)

/-- The exponent of a power of ten above the whole interval. -/
def coarsest (r : RoundingInterval) : Nat :=
  (Nat.toDigits 10 (r.high / unitsPerOne)).length

end RoundingInterval

/-- The shortest decimal that reads back to the magnitude of a finite number
other than zero. The finest grid, `10 ^ -324`, is finer than the gap between any
two numbers, so the search always finds one. -/
def shortest (tie : Tie) (x : Binary64) : Decimal :=
  let r := RoundingInterval.ofBinary64 x
  (r.search tie (r.coarsest + 325) r.coarsest).getD ⟨0, 0⟩

end ScriptLexer.Number
