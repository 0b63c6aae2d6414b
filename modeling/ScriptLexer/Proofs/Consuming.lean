import ScriptLexer.Proofs.Lexeme

/-!
What the operations of the cursor do to a text whose front is known. Each takes a
text off the front and, where the scanner uses it, counts exactly the line feeds
of that text, though some operations count none: the texts that those take hold
no line feed. So all of them come down to one, `consume`, and two in a row to the
same again. A whole lexeme, from the mark on, is `past`.
-/

namespace ScriptLexer

namespace Cursor

def consume (c : Cursor) (text rest : List Char) : Cursor :=
  (c.take text rest).countLines text

def past (c : Cursor) (text rest : List Char) : Cursor :=
  c.mark.consume text rest

@[simp] theorem consume_rest (c : Cursor) (text rest : List Char) :
    (c.consume text rest).rest = rest := rfl

@[simp] theorem past_rest (c : Cursor) (text rest : List Char) :
    (c.past text rest).rest = rest := rfl

@[simp] theorem past_line (c : Cursor) (text rest : List Char) :
    (c.past text rest).line = c.line + Text.lineFeeds text := rfl

@[simp] theorem past_offset (c : Cursor) (text rest : List Char) :
    (c.past text rest).offset = c.offset + Text.byteLength text := rfl

theorem consume_consume (c : Cursor) (first second rest rest' : List Char) :
    (c.consume first rest).consume second rest' = c.consume (first ++ second) rest' := by
  simp [consume, take, countLines, Nat.add_assoc]

theorem consume_eq_take {c : Cursor} {text rest : List Char} (h : '\n' ∉ text) :
    c.consume text rest = c.take text rest := by
  simp [consume, countLines, Text.lineFeeds, List.count_eq_zero_of_not_mem h]

theorem accept_of_eq {c : Cursor} {expected : Char} {rest : List Char}
    (h : c.rest = expected :: rest) (hline : expected ≠ '\n') :
    c.accept expected = (true, c.consume [expected] rest) := by
  rw [consume_eq_take (by simpa using hline.symm)]
  simp [accept, h]

theorem accept_of_ne {c : Cursor} {expected : Char} (h : expected ∉ c.rest.head?) :
    c.accept expected = (false, c) := by
  unfold accept
  split
  · rfl
  · next char rest hrest =>
    have hne : char ≠ expected := by simpa [hrest] using h
    simp [hne]

section

variable {c : Cursor} {isMember : Char → Bool} {run rest : List Char}

theorem takeRun_eq_take (h : c.rest = run ++ rest) (hrun : ∀ x ∈ run, isMember x = true)
    (hrest : ∀ x ∈ rest.head?, isMember x = false) :
    c.takeRun isMember = (run, c.take run rest) := by
  rw [takeRun, h, Text.takeWhile_append hrun hrest, Text.dropWhile_append hrun hrest]

theorem takeRun_eq (h : c.rest = run ++ rest) (hrun : ∀ x ∈ run, isMember x = true)
    (hrest : ∀ x ∈ rest.head?, isMember x = false) (hline : isMember '\n' = false) :
    c.takeRun isMember = (run, c.consume run rest) := by
  rw [takeRun_eq_take h hrun hrest, consume_eq_take]
  intro hmem
  rw [hrun _ hmem] at hline
  contradiction

theorem takeUpTo_eq {stop : Char} (h : c.rest = run ++ rest) (hrun : stop ∉ run)
    (hrest : ∀ x ∈ rest.head?, x = stop) :
    c.takeUpTo stop = (run, c.consume run rest) := by
  have hmember : ∀ x ∈ run, (x != stop) = true := by
    intro x hx
    simpa using fun hxs : x = stop => hrun (hxs ▸ hx)
  rw [takeUpTo, takeRun_eq_take h hmember (by simpa using hrest)]
  rfl

end

/-- A mark that closes a text is found where that text ends, whatever follows. -/
theorem splitAtMark?_of_closedBy {mark body : List Char} (h : Lexeme.ClosedBy mark body)
    (rest : List Char) : Text.splitAtMark? mark (body ++ mark ++ rest) = some (body, rest) := by
  cases hsplit : Text.splitAtMark? mark (body ++ mark ++ rest) with
  | none =>
      exact absurd ⟨body, rest, rfl⟩ (Text.splitAtMark?_eq_none_iff.1 hsplit)
  | some found =>
      obtain ⟨before, after⟩ := found
      have htext := Text.eq_append_of_splitAtMark? hsplit
      -- The mark found is the first, so it ends within `body ++ mark`: at its end, then.
      have hle := Text.length_le_of_splitAtMark? hsplit rfl
      obtain ⟨tail, htail⟩ : before ++ mark <+: body ++ mark := by
        refine List.prefix_of_prefix_length_le ⟨after, htext.symm⟩ ⟨rest, rfl⟩ ?_
        simpa using hle
      obtain rfl := h before tail htail.symm
      obtain rfl : before = body := by simpa using htail
      obtain rfl : after = rest := by simpa using htext.symm
      rfl

theorem takePast_of_closedBy {c : Cursor} {mark body rest : List Char}
    (h : c.rest = body ++ mark ++ rest) (hbody : Lexeme.ClosedBy mark body)
    (hline : '\n' ∉ mark) :
    c.takePast mark = (some body, c.consume (body ++ mark) rest) := by
  have hmark : Text.lineFeeds mark = 0 := List.count_eq_zero_of_not_mem hline
  rw [takePast, h, splitAtMark?_of_closedBy hbody rest]
  simp [consume, countLines, hmark]

theorem takePast_of_not_infix {c : Cursor} {mark : List Char} (h : ¬ mark <:+: c.rest) :
    c.takePast mark = (none, c.consume c.rest []) := by
  rw [takePast, Text.splitAtMark?_eq_none_iff.2 h]
  rfl

theorem takeFraction_eq {c : Cursor} {fraction rest : List Char}
    (h : c.rest = '.' :: (fraction ++ rest)) (hfraction : Lexeme.Digits fraction)
    (hrest : ∀ x ∈ rest.head?, x.isDigit = false) :
    c.takeFraction = (some fraction, c.consume ('.' :: fraction) rest) := by
  have hline : '\n' ∉ '.' :: fraction := by
    intro hmem
    have := hfraction.2 '\n' (by simpa using hmem)
    contradiction
  rw [consume_eq_take hline]
  unfold takeFraction
  simp only [h, Text.takeWhile_append hfraction.2 hrest, Text.dropWhile_append hfraction.2 hrest]
  rw [if_neg (by simpa using hfraction.1)]

theorem takeFraction_eq_none {c : Cursor}
    (h : ∀ x rest, c.rest = '.' :: x :: rest → x.isDigit = false) :
    c.takeFraction = (none, c) := by
  unfold takeFraction
  split
  · next rest hrest =>
    have hdigits : rest.takeWhile Char.isDigit = [] := by
      cases rest with
      | nil => rfl
      | cons x rest => simp [h x rest hrest]
    simp [hdigits]
  · rfl

end Cursor

end ScriptLexer
