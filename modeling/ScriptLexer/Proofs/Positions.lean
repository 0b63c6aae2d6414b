import ScriptLexer.Proofs.Pieces

/-!
Where the items of a scan stand. An item is as long as its piece and begins where
the text before that piece ends; so its offset and its line measure the same text,
one in bytes and the other in line feeds. That is all there is to the exactness of
lines: the scanner counts line feeds in three different places, but every piece
counts those of its own text once.
-/

namespace ScriptLexer

namespace Scan

def Item.span : Item → Span
  | .token t => t.span
  | .fault f => f.span

def Item.line : Item → Nat
  | .token t => t.line
  | .fault f => f.line

theorem Piece.item?_eq_token {p : Piece} {offset line : Nat} {t : Token}
    (h : p.item? offset line = some (.token t)) :
    p.reading = .token t.kind t.literal ∧ t.lexeme = String.ofList p.text ∧ t.line = line ∧
      t.span = ⟨offset, Text.byteLength p.text⟩ := by
  obtain ⟨text, reading⟩ := p
  cases reading with
  | skipped => contradiction
  | fault kind => simp [Piece.item?] at h
  | token kind literal =>
      simp only [Piece.item?, Option.some.injEq, Item.token.injEq] at h
      subst h
      exact ⟨rfl, rfl, rfl, rfl⟩

theorem Piece.reading_of_item?_eq_fault {p : Piece} {offset line : Nat} {f : Fault}
    (h : p.item? offset line = some (.fault f)) : p.reading = .fault f.kind := by
  obtain ⟨text, reading⟩ := p
  cases reading with
  | skipped => contradiction
  | token kind literal => simp [Piece.item?] at h
  | fault kind => cases h; rfl

theorem Piece.item?_place {p : Piece} {offset line : Nat} {item : Item}
    (h : p.item? offset line = some item) :
    item.span = ⟨offset, Text.byteLength p.text⟩ ∧ item.line = line := by
  obtain ⟨text, reading⟩ := p
  cases reading with
  | skipped => contradiction
  | token kind literal => cases h; exact ⟨rfl, rfl⟩
  | fault kind => cases h; exact ⟨rfl, rfl⟩

theorem Piece.item?_isSome {p : Piece} {offset line : Nat} :
    (p.item? offset line).isSome = true ↔ p.reading ≠ .skipped := by
  obtain ⟨text, reading⟩ := p
  cases reading <;> simp [Piece.item?]

structure Covers (item : Item) (before : List Char) (p : Piece) : Prop where
  item?_eq : p.item? (Text.byteLength before) (1 + Text.lineFeeds before) = some item
  lexeme : Lexeme p.text p.reading

theorem exists_covers {script : List Char} {item : Item} (h : item ∈ (ofText script).items) :
    ∃ before p after, script = before ++ p.text ++ after ∧ Covers item before p := by
  obtain ⟨ps, hps, rfl⟩ := exists_isCut script
  rw [ofText_textOf hps] at h
  obtain ⟨before, p, after, rfl, hitem⟩ := mem_itemsAt_iff.1 h
  rw [Nat.zero_add] at hitem
  exact ⟨textOf before, p, textOf after, by simp, hitem, hps.lexeme (by simp)⟩

theorem Covers.span {item : Item} {before : List Char} {p : Piece} (h : Covers item before p) :
    item.span = ⟨Text.byteLength before, Text.byteLength p.text⟩ :=
  (Piece.item?_place h.item?_eq).1

theorem Covers.line {item : Item} {before : List Char} {p : Piece} (h : Covers item before p) :
    item.line = 1 + Text.lineFeeds before :=
  (Piece.item?_place h.item?_eq).2

theorem Item.token?_eq_some_iff {item : Item} {t : Token} :
    item.token? = some t ↔ item = .token t := by
  cases item <;> simp [Item.token?]

theorem Item.fault?_eq_some_iff {item : Item} {f : Fault} :
    item.fault? = some f ↔ item = .fault f := by
  cases item <;> simp [Item.fault?]

theorem Item.span_of_token? {item : Item} {t : Token} (h : item.token? = some t) :
    item.span = t.span := by
  rw [Item.token?_eq_some_iff.1 h]
  rfl

theorem Item.span_of_fault? {item : Item} {f : Fault} (h : item.fault? = some f) :
    item.span = f.span := by
  rw [Item.fault?_eq_some_iff.1 h]
  rfl

theorem mem_properTokens_iff {scan : Scan} {t : Token} :
    t ∈ scan.properTokens ↔ .token t ∈ scan.items := by
  simp [properTokens, Item.token?_eq_some_iff]

theorem mem_faults_iff {scan : Scan} {f : Fault} : f ∈ scan.faults ↔ .fault f ∈ scan.items := by
  simp [faults, Item.fault?_eq_some_iff]

/-- The end of a scan: the script has been read to its last byte, and all of its
line feeds have been counted. -/
theorem endToken_ofText (script : List Char) :
    (ofText script).endToken =
      ⟨.endOfText, "", none, 1 + Text.lineFeeds script, ⟨Text.byteLength script, 0⟩⟩ := by
  obtain ⟨ps, hps, rfl⟩ := exists_isCut script
  rw [ofText_textOf hps]
  rfl

/-- `line` is the line on which the byte at `offset` stands: one more than the line
feeds before it. -/
def IsLineAt (script : List Char) (offset line : Nat) : Prop :=
  ∃ before, before <+: script ∧ Text.byteLength before = offset ∧
    line = 1 + Text.lineFeeds before

theorem isLineAt_item {script : List Char} {item : Item} (h : item ∈ (ofText script).items) :
    IsLineAt script item.span.offset item.line := by
  obtain ⟨before, p, after, rfl, hcovers⟩ := exists_covers h
  refine ⟨before, ?_, ?_, hcovers.line⟩
  · rw [List.append_assoc]
    exact List.prefix_append ..
  · rw [hcovers.span]

/-- Every token, the last one included, and every fault has the line on which it
begins. The last token stands behind the whole script. -/
theorem lines_exact (source : String) :
    (∀ t ∈ (scan source).tokens, IsLineAt source.toList t.span.offset t.line) ∧
      (∀ f ∈ (scan source).faults, IsLineAt source.toList f.span.offset f.line) ∧
      (scan source).endToken.line = 1 + Text.lineFeeds source.toList := by
  have hend := endToken_ofText source.toList
  refine ⟨?_, ?_, ?_⟩
  · intro t ht
    rcases List.mem_append.1 ht with ht | ht
    · exact isLineAt_item (mem_properTokens_iff.1 ht)
    · rw [List.mem_singleton.1 ht, scan, hend]
      exact ⟨source.toList, List.prefix_rfl, rfl, rfl⟩
  · intro f hf
    exact isLineAt_item (mem_faults_iff.1 hf)
  · rw [scan, hend]

end Scan

end ScriptLexer
