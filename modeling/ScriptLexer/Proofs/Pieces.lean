import ScriptLexer.Proofs.LongestMatch
import ScriptLexer.Scan

/-!
A scan as a list of pieces. A piece is a lexeme with what it stands for, and
`IsCut` says of a list that each piece stops where the next one begins. The text
of such a list is scanned into exactly these pieces, and every script is the text
of one. So a statement about scans becomes one about lists: how a script is cut is
a matter of the texts alone, and lines and offsets are added afterwards, by
`itemsAt`, from the place at which the first piece stands.
-/

namespace ScriptLexer

namespace Scan

structure Piece where
  text : List Char
  reading : Reading
  deriving DecidableEq

def Piece.item? (offset line : Nat) (p : Piece) : Option Item :=
  match p.reading with
  | .skipped => none
  | .token kind literal =>
    some (.token ⟨kind, String.ofList p.text, literal, line, ⟨offset, Text.byteLength p.text⟩⟩)
  | .fault kind => some (.fault ⟨kind, line, ⟨offset, Text.byteLength p.text⟩⟩)

def textOf (ps : List Piece) : List Char :=
  ps.flatMap Piece.text

@[simp] theorem textOf_nil : textOf [] = [] := rfl

@[simp] theorem textOf_cons (p : Piece) (ps : List Piece) :
    textOf (p :: ps) = p.text ++ textOf ps := rfl

@[simp] theorem textOf_append (ps qs : List Piece) :
    textOf (ps ++ qs) = textOf ps ++ textOf qs := by
  simp [textOf]

/-- What pieces add to a scan if the first of them begins at `offset` on `line`. -/
def itemsAt (offset line : Nat) : List Piece → List Item
  | [] => []
  | p :: ps =>
    (p.item? offset line).toList ++
      itemsAt (offset + Text.byteLength p.text) (line + Text.lineFeeds p.text) ps

theorem itemsAt_append (offset line : Nat) (ps qs : List Piece) :
    itemsAt offset line (ps ++ qs) =
      itemsAt offset line ps ++
        itemsAt (offset + Text.byteLength (textOf ps)) (line + Text.lineFeeds (textOf ps)) qs := by
  induction ps generalizing offset line with
  | nil => rfl
  | cons p ps ih => simp [itemsAt, ih, Nat.add_assoc]

theorem mem_itemsAt_iff {item : Item} {offset line : Nat} {ps : List Piece} :
    item ∈ itemsAt offset line ps ↔
      ∃ before p after, ps = before ++ p :: after ∧
        p.item? (offset + Text.byteLength (textOf before))
          (line + Text.lineFeeds (textOf before)) = some item := by
  induction ps generalizing offset line with
  | nil => simp [itemsAt]
  | cons q ps ih =>
      rw [itemsAt, List.mem_append, Option.mem_toList, ih]
      constructor
      · rintro (hitem | ⟨before, p, after, rfl, hitem⟩)
        · exact ⟨[], q, ps, rfl, hitem⟩
        · exact ⟨q :: before, p, after, rfl, by simpa [Nat.add_assoc] using hitem⟩
      · rintro ⟨before, p, after, hps, hitem⟩
        cases before with
        | nil =>
            obtain ⟨rfl, rfl⟩ := List.cons.inj hps
            exact .inl hitem
        | cons q' before =>
            obtain ⟨rfl, rfl⟩ := List.cons.inj hps
            exact .inr ⟨before, p, after, rfl, by simpa [Nat.add_assoc] using hitem⟩

/-- Each piece is a lexeme that stops where the next piece begins. -/
inductive IsCut : List Piece → Prop
  | nil : IsCut []
  | cons {p : Piece} {ps : List Piece} (hlexeme : Lexeme p.text p.reading)
      (hstops : Lexeme.Stops p.text (textOf ps)) (hps : IsCut ps) : IsCut (p :: ps)

theorem IsCut.of_append {ps qs : List Piece} (h : IsCut (ps ++ qs)) : IsCut qs := by
  induction ps with
  | nil => exact h
  | cons p ps ih =>
      cases h with
      | cons _ _ hps => exact ih hps

theorem IsCut.lexeme {ps : List Piece} (h : IsCut ps) {p : Piece} (hp : p ∈ ps) :
    Lexeme p.text p.reading := by
  induction h with
  | nil => contradiction
  | cons hlexeme _ _ ih =>
      rcases List.mem_cons.1 hp with rfl | hp
      · exact hlexeme
      · exact ih hp

/-- Every script can be cut: its longest lexeme stops, and the rest is shorter. -/
theorem exists_isCut (script : List Char) : ∃ ps, IsCut ps ∧ textOf ps = script := by
  induction hn : script.length using Nat.strong_induction_on generalizing script with
  | _ n ih =>
    subst hn
    by_cases hnil : script = []
    · exact ⟨[], .nil, hnil.symm⟩
    obtain ⟨text, hlongest⟩ := Lexeme.exists_isLongest hnil
    obtain ⟨reading, hlexeme⟩ := hlongest.isLexeme
    obtain ⟨rest, rfl⟩ := hlongest.begins
    have hshorter : rest.length < (text ++ rest).length := by
      have := List.length_pos_iff.2 hlexeme.ne_nil
      rw [List.length_append]
      omega
    obtain ⟨ps, hps, rfl⟩ := ih _ hshorter rest rfl
    exact ⟨⟨text, reading⟩ :: ps, .cons hlexeme hlongest.stops hps, rfl⟩

theorem eq_nil_of_textOf_eq_nil {ps : List Piece} (h : IsCut ps) (htext : textOf ps = []) :
    ps = [] := by
  cases h with
  | nil => rfl
  | cons hlexeme =>
      rw [textOf_cons, List.append_eq_nil_iff] at htext
      exact absurd htext.1 hlexeme.ne_nil

/-- A script can be cut in one way only: at each place one lexeme is read. -/
theorem IsCut.unique {ps qs : List Piece} (hps : IsCut ps) (hqs : IsCut qs)
    (htext : textOf ps = textOf qs) : ps = qs := by
  induction hps generalizing qs with
  | nil => exact (eq_nil_of_textOf_eq_nil hqs htext.symm).symm
  | @cons p ps hlexeme hstops _ ih =>
      cases hqs with
      | nil =>
          rw [textOf_cons, textOf_nil, List.append_eq_nil_iff] at htext
          exact absurd htext.1 hlexeme.ne_nil
      | @cons q qs hlexeme' hstops' hqs =>
          have hread := Reading.next?_of_stops (c := .ofText (textOf (p :: ps))) hlexeme hstops rfl
          rw [Reading.next?_of_stops hlexeme' hstops' htext] at hread
          obtain ⟨hreading, hpast⟩ := Prod.mk.inj (Option.some.inj hread)
          have hrest : textOf qs = textOf ps := congrArg Cursor.rest hpast
          obtain ⟨text, reading⟩ := p
          obtain ⟨text', reading'⟩ := q
          obtain rfl : text' = text := congrArg Cursor.lexeme hpast
          obtain rfl : reading' = reading := hreading
          rw [ih hqs hrest.symm]

theorem item?_past (c : Cursor) (p : Piece) (rest : List Char) :
    p.reading.item? (c.past p.text rest) = p.item? c.offset c.line := by
  obtain ⟨text, reading⟩ := p
  cases reading <;> rfl

theorem itemsFrom_of_isCut {ps : List Piece} (h : IsCut ps) {c : Cursor}
    (hc : c.rest = textOf ps) :
    (itemsFrom c).1 = itemsAt c.offset c.line ps ∧
      (itemsFrom c).2.line = c.line + Text.lineFeeds (textOf ps) ∧
      (itemsFrom c).2.offset = c.offset + Text.byteLength (textOf ps) := by
  induction h generalizing c with
  | nil =>
      rw [itemsFrom_of_none (Reading.next?_eq_none_iff.2 hc)]
      exact ⟨rfl, rfl, rfl⟩
  | @cons p ps hlexeme hstops _ ih =>
      obtain ⟨hitems, hline, hoffset⟩ := ih (c := c.past p.text (textOf ps)) rfl
      rw [itemsFrom_of_some (Reading.next?_of_stops hlexeme hstops hc), item?_past]
      refine ⟨?_, ?_, ?_⟩
      · rw [hitems]
        rfl
      · rw [hline, textOf_cons, Text.lineFeeds_append, Cursor.past_line, Nat.add_assoc]
      · rw [hoffset, textOf_cons, Text.byteLength_append, Cursor.past_offset, Nat.add_assoc]

theorem ofText_textOf {ps : List Piece} (h : IsCut ps) :
    ofText (textOf ps) =
      ⟨itemsAt 0 1 ps, 1 + Text.lineFeeds (textOf ps), Text.byteLength (textOf ps)⟩ := by
  let start := Cursor.ofText (textOf ps)
  obtain ⟨hitems, hline, hoffset⟩ := itemsFrom_of_isCut h (c := start) rfl
  have hzero : start.offset = 0 := rfl
  show Scan.mk (itemsFrom start).1 (itemsFrom start).2.line (itemsFrom start).2.offset = _
  rw [hitems, hline, hoffset, hzero, Nat.zero_add]
  rfl

end Scan

end ScriptLexer
