/-!
Sets of code points, written as lists of closed ranges.
-/

namespace ScriptLexer.Text

def inRanges (ranges : List (Nat × Nat)) (point : Nat) : Bool :=
  ranges.any fun (first, last) => first ≤ point && point ≤ last

end ScriptLexer.Text
