import ScriptLexer.Cursor

/-!
Where a cursor stands in the script that it walks through. It keeps its lexeme as a
text of its own; that this is the text between two offsets of the script is an invariant.
The cursor begins with it, marking a new lexeme keeps it, and so does everything that only
takes from the front of the rest. What is taken on the way from one stop to another is
`textTo`.
-/

namespace ScriptLexer

namespace Text

/-- The text between two offsets, if they are in order, not behind the end, and not
inside a character. -/
def slice? (start stop : Nat) (text : List Char) : Option (List Char) :=
  let (before, rest) := splitAtByte start text
  let (slice, _) := splitAtByte (stop - start) rest
  if start ≤ stop ∧ byteLength before = start ∧ byteLength slice = stop - start then some slice
  else none

theorem slice?_eq_some_iff {start stop : Nat} {text slice : List Char} :
    slice? start stop text = some slice ↔
      ∃ before after, text = before ++ slice ++ after ∧ byteLength before = start ∧
        byteLength (before ++ slice) = stop := by
  unfold slice?
  dsimp only
  constructor
  · intro h
    obtain ⟨⟨hle, hbefore, hslice⟩, hsome⟩ := Option.ite_none_right_eq_some.1 h
    obtain rfl := Option.some.inj hsome
    refine ⟨(splitAtByte start text).1, (splitAtByte (stop - start) (splitAtByte start text).2).2,
      ?_, hbefore, ?_⟩
    · rw [List.append_assoc, splitAtByte_append, splitAtByte_append]
    · rw [byteLength_append, hbefore, hslice]
      omega
  · rintro ⟨before, after, rfl, rfl, rfl⟩
    rw [byteLength_append, Nat.add_sub_cancel_left, List.append_assoc, splitAtByte_byteLength]
    dsimp only
    rw [splitAtByte_byteLength, if_pos ⟨Nat.le_add_right .., rfl, rfl⟩]

end Text

namespace Cursor

/-- The cursor walks through the script: what lies before its mark, its lexeme and its rest
make up the script. -/
def IsPlaced (script : List Char) (c : Cursor) : Prop :=
  ∃ before, script = before ++ c.lexeme ++ c.rest ∧ c.start = Text.byteLength before

theorem isPlaced_ofText (script : List Char) : (ofText script).IsPlaced script :=
  ⟨[], rfl, rfl⟩

section

variable {script : List Char} {c d : Cursor}

theorem IsPlaced.mark (h : c.IsPlaced script) : c.mark.IsPlaced script := by
  obtain ⟨before, hscript, hstart⟩ := h
  refine ⟨before ++ c.lexeme, ?_, ?_⟩
  · simpa [Cursor.mark] using hscript
  · simp [Cursor.mark, offset, hstart]

theorem IsPlaced.of_advances (h : c.IsPlaced script) (hadvances : c.Advances d) :
    d.IsPlaced script := by
  obtain ⟨before, hscript, hstart⟩ := h
  obtain ⟨hsame, _, text, hlexeme, hrest⟩ := hadvances
  refine ⟨before, ?_, hsame.trans hstart⟩
  rw [hscript, hlexeme, hrest]
  simp

theorem IsPlaced.take (h : c.IsPlaced script) {text rest : List Char}
    (hrest : c.rest = text ++ rest) : (c.take text rest).IsPlaced script :=
  h.of_advances (advances_take hrest)

theorem IsPlaced.slice?_eq (h : c.IsPlaced script) :
    Text.slice? c.start c.offset script = some c.lexeme := by
  obtain ⟨before, hscript, hstart⟩ := h
  refine Text.slice?_eq_some_iff.2 ⟨before, c.rest, hscript, hstart.symm, ?_⟩
  rw [offset, hstart, Text.byteLength_append]

theorem IsPlaced.offset_add (h : c.IsPlaced script) :
    c.offset + Text.byteLength c.rest = Text.byteLength script := by
  obtain ⟨before, hscript, hstart⟩ := h
  rw [hscript, offset, hstart, Text.byteLength_append, Text.byteLength_append]

/-- The text that is gone from the rest when the cursor has come to `d`. -/
def textTo (c d : Cursor) : List Char :=
  c.rest.take (c.rest.length - d.rest.length)

theorem textTo_eq {text : List Char} (h : c.rest = text ++ d.rest) : c.textTo d = text := by
  simp [textTo, h]

theorem Advances.textTo_append (h : c.Advances d) : c.textTo d ++ d.rest = c.rest := by
  obtain ⟨_, _, text, _, hrest⟩ := h
  rw [textTo_eq hrest, hrest]

theorem Advances.offset_eq (h : c.Advances d) :
    d.offset = c.offset + Text.byteLength (c.textTo d) := by
  obtain ⟨hstart, _, text, hlexeme, hrest⟩ := h
  rw [textTo_eq hrest, offset, offset, hstart, hlexeme, Text.byteLength_append, Nat.add_assoc]

end

end Cursor

end ScriptLexer
