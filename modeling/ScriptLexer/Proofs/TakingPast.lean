import ScriptLexer.Proofs.CheckedScan

/-!
Taking everything up to the end of a mark, for every mark: the empty one, which is found at
once, one that overlaps itself, one that holds line feeds. The cursor stops behind the first
place at which the mark occurs, or else at the end of the script.

The line feeds of a mark that was found are taken without being counted. So a call counts
the lines of all that it takes only where the mark is missing or holds no line feed, like
the one that closes a comment.
-/

namespace ScriptLexer

theorem Text.exists_splitAtMark? {mark text : List Char} (h : mark <:+: text) :
    ∃ before after, splitAtMark? mark text = some (before, after) := by
  obtain ⟨⟨before, after⟩, hfound⟩ :=
    Option.ne_none_iff_exists'.1 fun hnone => splitAtMark?_eq_none_iff.1 hnone h
  exact ⟨before, after, hfound⟩

namespace Cursor

/-- From `c`, the cursor takes `before` and the mark behind it, and leaves `after`. -/
structure Passes (c : Cursor) (mark before after : List Char) : Prop where
  rest : c.rest = before ++ mark ++ after
  first : ∀ before' after', c.rest = before' ++ mark ++ after' → before.length ≤ before'.length
  result : c.takePast mark = (some before,
    { c with
      lexeme := c.lexeme ++ (before ++ mark)
      rest := after
      line := c.line + Text.lineFeeds before })
  /-- The mark is there when it is taken behind `before`, and with it the call ends. -/
  isThere : Checked.takeMark
    { c with
      lexeme := c.lexeme ++ before
      rest := mark ++ after
      line := c.line + Text.lineFeeds before } mark = .ok (c.takePast mark).2

/-- What the cursor does that takes everything up to the end of the mark. -/
structure TakesPast (c : Cursor) (mark : List Char) : Prop where
  found : mark <:+: c.rest → ∃ before after, Passes c mark before after
  missing : ¬ mark <:+: c.rest → c.takePast mark = (none,
    { c with
      lexeme := c.lexeme ++ c.rest
      rest := []
      line := c.line + Text.lineFeeds c.rest })
  /-- The line feeds of the whole text that is taken are counted exactly if none of them
  belongs to a mark that was found. -/
  line_eq_iff :
    (c.takePast mark).2.line = c.line + Text.lineFeeds (c.textTo (c.takePast mark).2) ↔
      (mark <:+: c.rest → '\n' ∉ mark)

section

variable {c : Cursor} {mark : List Char}

theorem exists_passes (h : mark <:+: c.rest) : ∃ before after, Passes c mark before after := by
  obtain ⟨before, after, hfound⟩ := Text.exists_splitAtMark? h
  have hresult : c.takePast mark =
      (some before, (c.take (before ++ mark) after).countLines before) := by
    rw [takePast, hfound]
  refine ⟨before, after, Text.eq_append_of_splitAtMark? hfound,
    fun _ _ => Text.length_le_of_splitAtMark? hfound, hresult, ?_⟩
  rw [Checked.takeMark_eq rfl, hresult]
  simp [take, countLines]

theorem Passes.textTo_takePast {before after : List Char} (h : Passes c mark before after) :
    c.textTo (c.takePast mark).2 = before ++ mark :=
  textTo_eq (by rw [h.result, h.rest])

theorem textTo_takePast_of_missing (h : ¬ mark <:+: c.rest) :
    c.textTo (c.takePast mark).2 = c.rest := by
  have hresult := takePast_of_not_infix h
  exact textTo_eq (by rw [hresult, consume_rest, List.append_nil])

/-- Behind a mark that was found, the count lacks the line feeds of the mark. -/
theorem Passes.line_add {before after : List Char} (h : Passes c mark before after) :
    (c.takePast mark).2.line + Text.lineFeeds mark =
      c.line + Text.lineFeeds (c.textTo (c.takePast mark).2) := by
  rw [h.textTo_takePast, h.result, Text.lineFeeds_append, Nat.add_assoc]

theorem line_takePast_of_missing (h : ¬ mark <:+: c.rest) :
    (c.takePast mark).2.line = c.line + Text.lineFeeds (c.textTo (c.takePast mark).2) := by
  have hresult := takePast_of_not_infix h
  rw [textTo_takePast_of_missing h, hresult]
  rfl

end

/-- Every mark is taken past in this way, from wherever the cursor stands. -/
theorem takesPast (c : Cursor) (mark : List Char) : TakesPast c mark where
  found := exists_passes
  missing := takePast_of_not_infix
  line_eq_iff := by
    by_cases h : mark <:+: c.rest
    · obtain ⟨before, after, hpasses⟩ := exists_passes h
      have hcount : Text.lineFeeds mark = 0 ↔ '\n' ∉ mark := List.count_eq_zero
      rw [← hpasses.line_add, Nat.left_eq_add, hcount]
      exact ⟨fun hmark _ => hmark, fun hmark => hmark h⟩
    · exact iff_of_true (line_takePast_of_missing h) fun hfound => absurd hfound h

/-- A line feed that is the mark itself is taken and not counted. -/
theorem line_takePast_lineFeed_ne :
    ((ofText ['\n']).takePast ['\n']).2.line ≠
      (ofText ['\n']).line +
        Text.lineFeeds ((ofText ['\n']).textTo ((ofText ['\n']).takePast ['\n']).2) := by
  decide

end Cursor

end ScriptLexer
