import ScriptLexer.Reading

/-!
Scanning a script: reading one lexeme after another until nothing is left. What
the lexemes stand for is kept in order, as items; the tokens and the faults of a
scan are two views of the items. A fault never ends a scan, so the tokens hold
everything that could be recovered, and the last token marks the end.
-/

namespace ScriptLexer

namespace Scan

inductive Item where
  | token (token : Token)
  | fault (fault : Fault)
  deriving DecidableEq

def Item.token? : Item → Option Token
  | .token t => some t
  | .fault _ => none

def Item.fault? : Item → Option Fault
  | .token _ => none
  | .fault f => some f

end Scan

def Reading.item? (c : Cursor) : Reading → Option Scan.Item
  | skipped => none
  | token kind literal =>
    some (.token ⟨kind, String.ofList c.lexeme, literal, c.startLine, c.span⟩)
  | fault kind => some (.fault ⟨kind, c.startLine, c.span⟩)

structure Scan where
  items : List Scan.Item
  lastLine : Nat
  size : Nat
  deriving DecidableEq

namespace Scan

/-- Reads all lexemes from the cursor on, and gives their items and the cursor at
the end. -/
def itemsFrom (c : Cursor) : List Item × Cursor :=
  match h : Reading.next? c with
  | none => ([], c)
  | some (reading, after) =>
    have := Reading.length_rest_next? h
    let (items, last) := itemsFrom after
    ((reading.item? after).toList ++ items, last)
termination_by c.rest.length

theorem itemsFrom_of_none {c : Cursor} (h : Reading.next? c = none) :
    itemsFrom c = ([], c) := by
  rw [itemsFrom]
  split
  · rfl
  · next h' => rw [h] at h'; cases h'

theorem itemsFrom_of_some {c after : Cursor} {reading : Reading}
    (h : Reading.next? c = some (reading, after)) :
    itemsFrom c =
      ((reading.item? after).toList ++ (itemsFrom after).1, (itemsFrom after).2) := by
  rw [itemsFrom]
  split
  · next h' => rw [h] at h'; cases h'
  · next h' =>
    rw [h] at h'
    cases h'
    rfl

def ofText (text : List Char) : Scan :=
  let (items, last) := itemsFrom (.ofText text)
  ⟨items, last.line, last.offset⟩

def properTokens (scan : Scan) : List Token :=
  scan.items.filterMap Item.token?

def endToken (scan : Scan) : Token :=
  .endOfText scan.lastLine scan.size

def tokens (scan : Scan) : List Token :=
  scan.properTokens ++ [scan.endToken]

def faults (scan : Scan) : List Fault :=
  scan.items.filterMap Item.fault?

def hasFaults (scan : Scan) : Bool :=
  !scan.faults.isEmpty

def messages (scan : Scan) : List String :=
  scan.faults.map Fault.message

def result (scan : Scan) : Except (List Fault) (List Token) :=
  if scan.hasFaults then .error scan.faults else .ok scan.tokens

end Scan

def scan (source : String) : Scan :=
  .ofText source.toList

end ScriptLexer
