import ScriptLexer.Proofs.TrailingBlanks

/-!
Blanks can be inserted wherever the loop begins a lexeme, and at the end of a script that
leaves nothing open. What stands before them stops at a blank as it did at the next lexeme,
save that a line comment takes the blanks up to the end of its line; what stands behind them
is moved by their bytes and by their line feeds. An item belongs to one side or the other,
as it begins before the place or not.
-/

namespace ScriptLexer

namespace Text

/-- A text with another one put into it, where so many of its bytes have passed. -/
def insertAt (offset : Nat) (inserted text : List Char) : List Char :=
  (splitAtByte offset text).1 ++ (inserted ++ (splitAtByte offset text).2)

theorem insertAt_byteLength (before inserted after : List Char) :
    insertAt (byteLength before) inserted (before ++ after) = before ++ (inserted ++ after) := by
  rw [insertAt, splitAtByte_byteLength]

end Text

/-- The token, moved if it begins at `offset` or behind it. -/
def Token.makeRoom (offset bytes lines : Nat) (t : Token) : Token :=
  if t.span.offset < offset then t else t.shift bytes lines

def Fault.makeRoom (offset bytes lines : Nat) (f : Fault) : Fault :=
  if f.span.offset < offset then f else f.shift bytes lines

namespace Scan

def Item.makeRoom (offset bytes lines : Nat) : Item → Item
  | .token t => .token (t.makeRoom offset bytes lines)
  | .fault f => .fault (f.makeRoom offset bytes lines)

section

variable {offset : Nat} (bytes lines : Nat) {item : Item}

theorem Item.makeRoom_of_lt (h : item.span.offset < offset) :
    item.makeRoom offset bytes lines = item := by
  cases item with
  | token t => exact congrArg Item.token (if_pos h)
  | fault f => exact congrArg Item.fault (if_pos h)

theorem Item.makeRoom_of_le (h : offset ≤ item.span.offset) :
    item.makeRoom offset bytes lines = item.shift bytes lines := by
  cases item with
  | token t => exact congrArg Item.token (if_neg (Nat.not_lt.2 h))
  | fault f => exact congrArg Item.fault (if_neg (Nat.not_lt.2 h))

end

section

variable (offset bytes lines : Nat) (items : List Item)

theorem filterMap_token?_makeRoom :
    (items.map (Item.makeRoom offset bytes lines)).filterMap Item.token? =
      (items.filterMap Item.token?).map (Token.makeRoom offset bytes lines) := by
  apply filterMap_map_move
  intro item
  cases item <;> rfl

theorem filterMap_fault?_makeRoom :
    (items.map (Item.makeRoom offset bytes lines)).filterMap Item.fault? =
      (items.filterMap Item.fault?).map (Fault.makeRoom offset bytes lines) := by
  apply filterMap_map_move
  intro item
  cases item <;> rfl

end

/-- A place at which blanks can be inserted: one at which the loop begins a lexeme, or the
end of a source that leaves no string and no comment open. -/
def AdmitsBlanks (source : String) (offset : Nat) : Prop :=
  (offset = source.utf8ByteSize ∧ IsTerminated source) ∨
    ∃ items c, Reached source.toList items c ∧ c.rest ≠ [] ∧ c.offset = offset

theorem AdmitsBlanks.exists_isCut {source : String} {offset : Nat}
    (h : AdmitsBlanks source offset) :
    ∃ done ahead, IsCut (done ++ ahead) ∧ textOf (done ++ ahead) = source.toList ∧
      offset = Text.byteLength (textOf done) ∧
      ∀ p ∈ done, ∀ kind, p.reading = .fault kind → kind.isUnterminated = false := by
  rcases h with ⟨rfl, hclosed⟩ | ⟨items, c, hreached, hrest, rfl⟩
  · obtain ⟨ps, hps, htext⟩ := Scan.exists_isCut source.toList
    refine ⟨ps, [], by simpa using hps, by simpa using htext, ?_, ?_⟩
    · rw [htext, Text.byteLength_toList]
    · rw [← String.ofList_toList (s := source), ← htext] at hclosed
      exact fun p => hclosed.of_mem hps
  · obtain ⟨done, ahead, htext, hbetween⟩ := hreached.exists_between
    refine ⟨done, ahead, hbetween.isCut, htext, hbetween.offset, ?_⟩
    intro p hp kind hreading
    by_contra hkind
    -- Nothing comes behind a piece that is left open, but the lexeme at the cursor does.
    obtain ⟨first, last, rfl⟩ := List.append_of_mem hp
    have hcut := hbetween.isCut
    rw [List.append_assoc] at hcut
    have hnil := hcut.of_append.eq_nil_of_unterminated hreading (eq_true_of_ne_false hkind)
    obtain rfl := (List.append_eq_nil_iff.1 hnil).2
    exact hrest hbetween.rest

theorem offset_lt_of_mem_itemsAt {ps : List Piece} (h : IsCut ps) {item : Item}
    {offset line : Nat} (hitem : item ∈ itemsAt offset line ps) :
    item.span.offset < offset + Text.byteLength (textOf ps) := by
  obtain ⟨before, p, after, rfl, hplace⟩ := mem_itemsAt_iff.1 hitem
  have hpos := Text.byteLength_pos (h.lexeme (p := p) (by simp)).ne_nil
  rw [(Piece.item?_place hplace).1]
  simp only [textOf_append, textOf_cons, Text.byteLength_append]
  omega

section

variable {done ahead : List Piece} {blanks : List Char}

theorem items_insert (h : IsCut (done ++ ahead))
    (hclosed : ∀ p ∈ done, ∀ kind, p.reading = .fault kind → kind.isUnterminated = false)
    (hblanks : ∀ c ∈ blanks, c ∈ Lexeme.blanks) :
    (ofText (textOf done ++ (blanks ++ textOf ahead))).items =
      (ofText (textOf (done ++ ahead))).items.map (Item.makeRoom (Text.byteLength (textOf done))
        (Text.byteLength blanks) (Text.lineFeeds blanks)) := by
  obtain ⟨rs, hrs, htext, hitems⟩ :=
    exists_isCut_blanks hblanks h.of_append_left hclosed h.of_append (.inr h)
  have hnew := ofText_textOf hrs
  rw [textOf_append, htext, List.append_assoc] at hnew
  rw [hnew, ofText_textOf h]
  show itemsAt 0 1 (rs ++ ahead) = (itemsAt 0 1 (done ++ ahead)).map _
  rw [itemsAt_append, itemsAt_append, List.map_append, hitems, htext, Text.byteLength_append,
    Text.lineFeeds_append, Nat.zero_add, Nat.zero_add, ← Nat.add_assoc, itemsAt_shift]
  congr 1
  · have hstay : ∀ item ∈ itemsAt 0 1 done, item.makeRoom (Text.byteLength (textOf done))
        (Text.byteLength blanks) (Text.lineFeeds blanks) = item := by
      intro item hitem
      have hlt := offset_lt_of_mem_itemsAt h.of_append_left hitem
      rw [Nat.zero_add] at hlt
      exact item.makeRoom_of_lt _ _ hlt
    rw [List.map_congr_left hstay, List.map_id']
  · apply List.map_congr_left
    intro item hitem
    exact (item.makeRoom_of_le _ _ (offset_le_of_mem_itemsAt hitem)).symm

theorem endToken_insert (before after blanks : List Char) :
    (ofText (before ++ (blanks ++ after))).endToken =
      (ofText (before ++ after)).endToken.makeRoom (Text.byteLength before)
        (Text.byteLength blanks) (Text.lineFeeds blanks) := by
  have hle : ¬ Text.byteLength (before ++ after) < Text.byteLength before := by
    rw [Text.byteLength_append]
    omega
  rw [endToken_ofText, endToken_ofText, Token.makeRoom, if_neg hle]
  simp only [Token.shift, Text.byteLength_append, Text.lineFeeds_append, Nat.add_assoc,
    Nat.add_comm]

end

/-- Blanks inserted where a lexeme begins, or behind the whole source if it leaves nothing
open, move what begins there or later, and change nothing else. -/
theorem scan_insertAt {source blanks : String} {offset : Nat} (hoffset : AdmitsBlanks source offset)
    (hblanks : ∀ c ∈ blanks.toList, c ∈ Lexeme.blanks) :
    let inserted := String.ofList (Text.insertAt offset blanks.toList source.toList)
    let bytes := blanks.utf8ByteSize
    let lines := Text.lineFeeds blanks.toList
    (scan inserted).tokens = (scan source).tokens.map (Token.makeRoom offset bytes lines) ∧
      (scan inserted).faults = (scan source).faults.map (Fault.makeRoom offset bytes lines) := by
  intro inserted bytes lines
  obtain ⟨done, ahead, hcut, htext, rfl, hclosed⟩ := hoffset.exists_isCut
  have hinserted : inserted.toList = textOf done ++ (blanks.toList ++ textOf ahead) := by
    rw [String.toList_ofList, ← htext, textOf_append, Text.insertAt_byteLength]
  have hitems := items_insert hcut hclosed hblanks
  have hend := endToken_insert (textOf done) (textOf ahead) blanks.toList
  rw [← hinserted, htext, Text.byteLength_toList] at hitems
  rw [← hinserted, ← textOf_append, htext, Text.byteLength_toList] at hend
  constructor
  · rw [scan, tokens, properTokens, hitems, filterMap_token?_makeRoom, hend, scan, tokens,
      List.map_append]
    rfl
  · rw [scan, faults, hitems, filterMap_fault?_makeRoom]
    rfl

/-- A blank that a comment takes and a line feed that it leaves, in front of the line feed at
which the comment ends. -/
theorem scan_insertAt_comment :
    let source := "1//é\n@"
    let blanks := "\t\n"
    AdmitsBlanks source 5 ∧ (∀ c ∈ blanks.toList, c ∈ Lexeme.blanks) ∧
      String.ofList (Text.insertAt 5 blanks.toList source.toList) = "1//é\t\n\n@" ∧
      (scan "1//é\t\n\n@").tokens = (scan source).tokens.map (Token.makeRoom 5 2 1) ∧
      (scan "1//é\t\n\n@").faults = (scan source).faults.map (Fault.makeRoom 5 2 1) := by
  intro source blanks
  have hnumber : Reading.next? (.ofText source.toList) =
      some (.token .integerNumber (some (.integer 1)),
        ⟨0, ['1'], ['/', '/', 'é', '\n', '@'], 1, 1⟩) := by
    decide +kernel
  have hcomment : Reading.next? ⟨0, ['1'], ['/', '/', 'é', '\n', '@'], 1, 1⟩ =
      some (.skipped, ⟨1, ['/', '/', 'é'], ['\n', '@'], 1, 1⟩) := by
    decide +kernel
  have hoffset : AdmitsBlanks source 5 :=
    .inr ⟨_, _, (Reached.start.step hnumber).step hcomment, by simp, by decide +kernel⟩
  have hblanks : ∀ c ∈ blanks.toList, c ∈ Lexeme.blanks := by simp [blanks, Lexeme.blanks]
  have hinserted : String.ofList (Text.insertAt 5 blanks.toList source.toList) =
      "1//é\t\n\n@" := by
    decide +kernel
  have hbytes : blanks.utf8ByteSize = 2 := by decide +kernel
  have hlines : Text.lineFeeds blanks.toList = 1 := by decide +kernel
  have h := scan_insertAt hoffset hblanks
  dsimp only at h
  rw [hinserted, hbytes, hlines] at h
  exact ⟨hoffset, hblanks, hinserted, h⟩

end Scan

end ScriptLexer
