import ScriptLexer.Proofs.Loop
import ScriptLexer.Proofs.Positions

/-!
A scan can be resumed wherever the loop begins a lexeme. A piece that stops where
the next one begins also stops where the script ends, since there is less to go on
into; so the pieces before such a place are a cut of their own, and those behind it
are one in any case. Nothing else is carried across: the second scan differs from
the tail of the whole one by the place at which it starts.
-/

namespace ScriptLexer

def Token.shift (bytes lines : Nat) (t : Token) : Token :=
  { t with line := t.line + lines, span := ⟨t.span.offset + bytes, t.span.length⟩ }

def Fault.shift (bytes lines : Nat) (f : Fault) : Fault :=
  { f with line := f.line + lines, span := ⟨f.span.offset + bytes, f.span.length⟩ }

namespace Scan

def Item.shift (bytes lines : Nat) : Item → Item
  | .token t => .token (t.shift bytes lines)
  | .fault f => .fault (f.shift bytes lines)

theorem Piece.item?_shift (bytes lines offset line : Nat) (p : Piece) :
    p.item? (offset + bytes) (line + lines) =
      (p.item? offset line).map (Item.shift bytes lines) := by
  obtain ⟨text, reading⟩ := p
  cases reading <;> rfl

theorem itemsAt_shift (bytes lines offset line : Nat) (ps : List Piece) :
    itemsAt (offset + bytes) (line + lines) ps =
      (itemsAt offset line ps).map (Item.shift bytes lines) := by
  induction ps generalizing offset line with
  | nil => rfl
  | cons p ps ih =>
      rw [itemsAt, itemsAt, List.map_append, Piece.item?_shift, ← ih, Option.toList_map,
        Nat.add_right_comm offset, Nat.add_right_comm line]

theorem filterMap_map_move {α : Type} {view : Item → Option α} {moveItem : Item → Item}
    {move : α → α} (hview : ∀ item, view (moveItem item) = (view item).map move)
    (items : List Item) :
    (items.map moveItem).filterMap view = (items.filterMap view).map move := by
  rw [List.filterMap_map, List.map_filterMap]
  congr 1
  funext item
  exact hview item

theorem filterMap_token?_shift (bytes lines : Nat) (items : List Item) :
    (items.map (Item.shift bytes lines)).filterMap Item.token? =
      (items.filterMap Item.token?).map (Token.shift bytes lines) := by
  apply filterMap_map_move
  intro item
  cases item <;> rfl

theorem filterMap_fault?_shift (bytes lines : Nat) (items : List Item) :
    (items.map (Item.shift bytes lines)).filterMap Item.fault? =
      (items.filterMap Item.fault?).map (Fault.shift bytes lines) := by
  apply filterMap_map_move
  intro item
  cases item <;> rfl

/-- The first pieces of a cut are a cut of their own: what follows them no longer
matters, since none of them goes on into it. -/
theorem IsCut.of_append_left {ps qs : List Piece} (h : IsCut (ps ++ qs)) : IsCut ps := by
  induction ps with
  | nil => exact .nil
  | cons p ps ih =>
      cases h with
      | cons hlexeme hstops hps =>
          refine .cons hlexeme (hstops.mono ⟨textOf qs, ?_⟩) (ih hps)
          exact (textOf_append ps qs).symm

theorem ofText_append {ps qs : List Piece} (h : IsCut (ps ++ qs)) :
    (ofText (textOf ps ++ textOf qs)).items =
      (ofText (textOf ps)).items ++ (ofText (textOf qs)).items.map
        (Item.shift (Text.byteLength (textOf ps)) (Text.lineFeeds (textOf ps))) := by
  rw [← textOf_append, ofText_textOf h, ofText_textOf h.of_append_left, ofText_textOf h.of_append,
    itemsAt_append, itemsAt_shift]

theorem Reached.exists_between_of_offset {before rest : List Char} {items : List Item}
    {c : Cursor} (h : Reached (before ++ rest) items c)
    (hoffset : c.offset = Text.byteLength before) :
    ∃ done ahead, textOf done = before ∧ textOf ahead = rest ∧ Between done ahead items c := by
  obtain ⟨done, ahead, htext, hbetween⟩ := h.exists_between
  rw [textOf_append] at htext
  obtain ⟨hbefore, hrest⟩ :=
    Text.append_inj_of_byteLength_eq htext (hbetween.offset.symm.trans hoffset)
  exact ⟨done, ahead, hbefore, hrest, hbetween⟩

/-- The end of the script, or an offset at which the loop begins a lexeme. -/
def IsBoundary (source : String) (offset : Nat) : Prop :=
  offset = source.utf8ByteSize ∨
    ∃ items c, Reached source.toList items c ∧ c.rest ≠ [] ∧ c.offset = offset

theorem IsBoundary.exists_isCut {a b : String} (h : IsBoundary (a ++ b) a.utf8ByteSize) :
    ∃ ps qs, IsCut (ps ++ qs) ∧ textOf ps = a.toList ∧ textOf qs = b.toList := by
  rw [← Text.byteLength_toList] at h
  rcases h with hend | ⟨items, c, hreached, -, hoffset⟩
  · -- Nothing is left behind `a`, so any cut of it will do.
    obtain ⟨ps, hps, htext⟩ := Scan.exists_isCut a.toList
    have hempty : b = "" := by
      rw [← String.utf8ByteSize_eq_zero_iff]
      rw [Text.byteLength_toList, String.utf8ByteSize_append] at hend
      omega
    exact ⟨ps, [], by simpa using hps, htext, by rw [hempty]; rfl⟩
  · rw [String.toList_append] at hreached
    obtain ⟨ps, qs, hps, hqs, hbetween⟩ := hreached.exists_between_of_offset hoffset
    exact ⟨ps, qs, hbetween.isCut, hps, hqs⟩

/-- The scan of `a ++ b` is the scan of `a` without its last token, followed by the
scan of `b`, moved behind `a`. -/
theorem scan_append_of_isBoundary {a b : String} (h : IsBoundary (a ++ b) a.utf8ByteSize) :
    (scan (a ++ b)).tokens = (scan a).properTokens ++
        (scan b).tokens.map (Token.shift a.utf8ByteSize (Text.lineFeeds a.toList)) ∧
      (scan (a ++ b)).faults = (scan a).faults ++
        (scan b).faults.map (Fault.shift a.utf8ByteSize (Text.lineFeeds a.toList)) := by
  obtain ⟨ps, qs, hcut, hps, hqs⟩ := h.exists_isCut
  have hitems := ofText_append hcut
  rw [hps, hqs, ← String.toList_append, Text.byteLength_toList] at hitems
  have hend : (scan (a ++ b)).endToken =
      (scan b).endToken.shift a.utf8ByteSize (Text.lineFeeds a.toList) := by
    simp only [scan, endToken_ofText, Token.shift, String.toList_append, Text.lineFeeds_append,
      Text.byteLength_append, Text.byteLength_toList, Nat.add_comm, Nat.add_left_comm]
  constructor
  · rw [tokens, tokens, hend, List.map_append, ← List.append_assoc]
    congr 1
    rw [properTokens, scan, hitems, List.filterMap_append, filterMap_token?_shift]
    rfl
  · rw [faults, scan, hitems, List.filterMap_append, filterMap_fault?_shift]
    rfl

/-- The point behind the digit is a lexeme of its own, since no digit follows it. -/
theorem scan_append_before_point :
    IsBoundary ("\n1" ++ ".x") "\n1".utf8ByteSize ∧
      (scan ("\n1" ++ ".x")).tokens = (scan "\n1").properTokens ++
        (scan ".x").tokens.map (Token.shift "\n1".utf8ByteSize (Text.lineFeeds "\n1".toList)) ∧
      (scan ("\n1" ++ ".x")).faults = (scan "\n1").faults ++
        (scan ".x").faults.map (Fault.shift "\n1".utf8ByteSize (Text.lineFeeds "\n1".toList)) := by
  have hline : Reading.next? (.ofText ("\n1" ++ ".x").toList) =
      some (.skipped, ⟨0, ['\n'], ['1', '.', 'x'], 1, 2⟩) := by
    decide +kernel
  have hdigit : Reading.next? ⟨0, ['\n'], ['1', '.', 'x'], 1, 2⟩ =
      some (.token .integerNumber (some (.integer 1)), ⟨1, ['1'], ['.', 'x'], 2, 2⟩) := by
    decide +kernel
  have h : IsBoundary ("\n1" ++ ".x") "\n1".utf8ByteSize :=
    .inr ⟨_, _, (Reached.start.step hline).step hdigit, by simp, rfl⟩
  exact ⟨h, scan_append_of_isBoundary h⟩

end Scan

end ScriptLexer
