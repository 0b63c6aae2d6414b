import ScriptLexer.Proofs.Pieces

/-!
The loop of a scan, stopped between two lexemes. `Reached` follows the loop as it
runs; its invariant, `Between`, places the cursor at a seam of the pieces into
which the script is cut. The main result is that each turn of the loop reads the
longest lexeme that the rest of the script begins with, and adds what that lexeme
stands for.
-/

namespace ScriptLexer

namespace Scan

/-- The loop has added `items`, and goes on at the cursor. -/
inductive Reached (script : List Char) : List Item → Cursor → Prop
  | start : Reached script [] (.ofText script)
  | step {items : List Item} {c after : Cursor} {reading : Reading}
      (h : Reached script items c) (hnext : Reading.next? c = some (reading, after)) :
      Reached script (items ++ (reading.item? after).toList) after

/-- The cursor stands between the pieces that the loop has read, whose items have
been added, and those that it has still to read. -/
structure Between (done ahead : List Piece) (items : List Item) (c : Cursor) : Prop where
  isCut : IsCut (done ++ ahead)
  rest : c.rest = textOf ahead
  offset : c.offset = Text.byteLength (textOf done)
  line : c.line = 1 + Text.lineFeeds (textOf done)
  items : items = itemsAt 0 1 done

theorem between_start {ps : List Piece} (h : IsCut ps) :
    Between [] ps [] (.ofText (textOf ps)) where
  isCut := h
  rest := rfl
  offset := rfl
  line := rfl
  items := rfl

theorem Between.step {done ahead : List Piece} {items : List Item} {c : Cursor} {p : Piece}
    (h : Between done (p :: ahead) items c) :
    Reading.next? c = some (p.reading, c.past p.text (textOf ahead)) ∧
      Between (done ++ [p]) ahead (items ++ (p.item? c.offset c.line).toList)
        (c.past p.text (textOf ahead)) := by
  have hcut := h.isCut
  cases hcut.of_append with
  | cons hlexeme hstops _ =>
      refine ⟨Reading.next?_of_stops hlexeme hstops h.rest, ?_, rfl, ?_, ?_, ?_⟩
      · simpa using hcut
      · simp [h.offset]
      · simp [h.line, Nat.add_assoc]
      · rw [h.items, itemsAt_append, Nat.zero_add, ← h.offset, ← h.line]
        simp [itemsAt]

theorem Reached.exists_between {script : List Char} {items : List Item} {c : Cursor}
    (h : Reached script items c) :
    ∃ done ahead, textOf (done ++ ahead) = script ∧ Between done ahead items c := by
  induction h with
  | start =>
      obtain ⟨ps, hps, rfl⟩ := exists_isCut script
      exact ⟨[], ps, rfl, between_start hps⟩
  | @step items c after reading _ hnext ih =>
      obtain ⟨done, ahead, htext, hbetween⟩ := ih
      cases ahead with
      | nil =>
          rw [Reading.next?_eq_none_iff.2 hbetween.rest] at hnext
          contradiction
      | cons p ahead =>
          obtain ⟨hread, hnew⟩ := hbetween.step
          rw [hread] at hnext
          obtain ⟨rfl, rfl⟩ := Prod.mk.inj (Option.some.inj hnext)
          rw [item?_past]
          exact ⟨done ++ [p], ahead, by simpa using htext, hnew⟩

theorem Between.begins {done ahead : List Piece} {items : List Item} {c : Cursor}
    (h : Between done ahead items c) :
    items <+: (ofText (textOf (done ++ ahead))).items := by
  rw [ofText_textOf h.isCut, h.items, itemsAt_append]
  exact List.prefix_append ..

/-- One turn of the loop over `source`, from the cursor `c` with `items` added so
far, reads the piece `p` and leaves `after`. -/
structure ReadsLongest (source : String) (items : List Item) (c : Cursor) (p : Piece)
    (after : List Char) : Prop where
  place : ∃ before, source.toList = before ++ c.rest ∧ c.offset = Text.byteLength before
  rest : c.rest = p.text ++ after
  longest : Lexeme.IsLongest c.rest p.text
  lexeme : Lexeme p.text p.reading
  /-- No class prescribes anything else for that text. -/
  only : ∀ other, Lexeme p.text other → other = p.reading
  read : Reading.next? c = some (p.reading, c.past p.text after)
  reached : Reached source.toList (items ++ (p.item? c.offset c.line).toList) (c.past p.text after)
  begins : items ++ (p.item? c.offset c.line).toList <+: (scan source).items

/-- Wherever the loop begins a lexeme, it reads the longest one. -/
theorem Reached.reads_longest {source : String} {items : List Item} {c : Cursor}
    (h : Reached source.toList items c) (hrest : c.rest ≠ []) :
    ∃ p after, ReadsLongest source items c p after := by
  obtain ⟨done, ahead, htext, hbetween⟩ := h.exists_between
  cases ahead with
  | nil => exact absurd hbetween.rest hrest
  | cons p ahead =>
      obtain ⟨hread, hnew⟩ := hbetween.step
      have hlexeme : Lexeme p.text p.reading := hbetween.isCut.lexeme (by simp)
      have hstops : Lexeme.Stops p.text (textOf ahead) := by
        cases hbetween.isCut.of_append with
        | cons _ hstops _ => exact hstops
      have hsplit : done ++ [p] ++ ahead = done ++ p :: ahead := by simp
      refine ⟨p, textOf ahead, ⟨textOf done, ?_, hbetween.offset⟩, hbetween.rest, ?_, hlexeme,
        fun other hother => hlexeme.unique hother, hread, ?_, ?_⟩
      · rw [← htext, hbetween.rest, textOf_append]
      · rw [hbetween.rest]
        exact (Lexeme.isLongest_iff_stops hlexeme).2 hstops
      · rw [← item?_past c p (textOf ahead)]
        exact h.step hread
      · have hbegins := hnew.begins
        rw [hsplit, htext] at hbegins
        exact hbegins

/-- Behind the word `x`, the whole of `/*/` is read as a comment that is not closed. -/
theorem reads_longest_unclosed_comment :
    let items : List Item := [.token ⟨.identifier, "x", none, 1, ⟨0, 1⟩⟩]
    let c : Cursor := ⟨0, ['x'], ['/', '*', '/'], 1, 1⟩
    Reached "x/*/".toList items c ∧ c.rest ≠ [] ∧
      ∃ p after, ReadsLongest "x/*/" items c p after := by
  intro items c
  have hnext : Reading.next? (.ofText "x/*/".toList) = some (.token .identifier none, c) := by
    decide +kernel
  have h : Reached "x/*/".toList items c := .step .start hnext
  exact ⟨h, by simp [c], h.reads_longest (by simp [c])⟩

end Scan

end ScriptLexer
