import ScriptLexer.Proofs.Positions

/-!
The items of a scan tile the script: their spans lie between characters, hold at
least one byte, follow each other without overlap, and leave out nothing but blanks
and comments. Of what is left out, only the longest stretches say anything. Such a
stretch begins where an item ends, so it begins with a piece, and since no part of
it is covered, the pieces in it stand for nothing.
-/

namespace ScriptLexer

namespace Scan

/-! ### Items in order -/

theorem offset_le_of_mem_itemsAt {item : Item} {offset line : Nat} {ps : List Piece}
    (h : item ∈ itemsAt offset line ps) : offset ≤ item.span.offset := by
  obtain ⟨before, p, after, _, hitem⟩ := mem_itemsAt_iff.1 h
  rw [(Piece.item?_place hitem).1]
  exact Nat.le_add_right ..

theorem pairwise_itemsAt (offset line : Nat) (ps : List Piece) :
    (itemsAt offset line ps).Pairwise fun first second =>
      first.span.stop ≤ second.span.offset := by
  induction ps generalizing offset line with
  | nil => exact .nil
  | cons p ps ih =>
      rw [itemsAt, List.pairwise_append]
      refine ⟨?_, ih .., ?_⟩
      · cases p.item? offset line <;> simp
      · intro first hfirst second hsecond
        rw [Option.mem_toList] at hfirst
        rw [(Piece.item?_place hfirst).1]
        exact offset_le_of_mem_itemsAt hsecond

theorem ofMark?_ne_endOfText (c : Char) : Kind.ofMark? c ≠ some .endOfText := by
  unfold Kind.ofMark?
  split <;> simp

theorem ofOperator?_ne_endOfText {c : Char} {pair : Kind.OperatorPair}
    (h : Kind.ofOperator? c = some pair) :
    pair.alone ≠ .endOfText ∧ pair.withEqual ≠ .endOfText := by
  unfold Kind.ofOperator? at h
  split at h <;> simp only [Option.some.injEq, reduceCtorEq] at h <;> subst h <;> simp

theorem kind_ne_endOfText {text : List Char} {kind : Kind} {literal : Option Literal}
    (h : Lexeme text (.token kind literal)) : kind ≠ .endOfText := by
  cases h with
  | mark _ hkind =>
      rintro rfl
      exact ofMark?_ne_endOfText _ hkind
  | operator _ hpair => exact (ofOperator?_ne_endOfText hpair).1
  | operatorEqual _ hpair => exact (ofOperator?_ne_endOfText hpair).2
  | word =>
      unfold Lexeme.wordKind
      split <;> simp
  | _ => simp

/-! ### What is left out -/

/-- A stretch of a script that stands for nothing: blanks, line comments up to the
end of their line, and closed block comments. The script goes on with `after`. -/
inductive IsSkipped (after : List Char) : List Char → Prop
  | nil : IsSkipped after []
  | blank {c : Char} {gap : List Char} (hc : c ∈ Lexeme.blanks) (hgap : IsSkipped after gap) :
      IsSkipped after (c :: gap)
  | lineComment {body gap : List Char} (hbody : '\n' ∉ body)
      (hend : ∀ x ∈ (gap ++ after).head?, x = '\n') (hgap : IsSkipped after gap) :
      IsSkipped after ('/' :: '/' :: (body ++ gap))
  | blockComment {body gap : List Char} (hbody : Lexeme.ClosedBy Lexeme.commentEnd body)
      (hgap : IsSkipped after gap) :
      IsSkipped after ('/' :: '*' :: (body ++ Lexeme.commentEnd ++ gap))

theorem IsSkipped.cons_lexeme {text gap after : List Char} (h : Lexeme text .skipped)
    (hstops : Lexeme.Stops text (gap ++ after)) (hgap : IsSkipped after gap) :
    IsSkipped after (text ++ gap) := by
  cases h with
  | lineComment hbody => exact .lineComment hbody (hstops.eq_lineFeed hbody) hgap
  | blockComment hbody => exact .blockComment hbody hgap
  | blank hc => exact .blank hc hgap

def CoveredBy (items : List Item) (offset : Nat) : Prop :=
  ∃ item ∈ items, item.span.offset ≤ offset ∧ offset < item.span.stop

theorem coveredBy_itemsAt_of_lt {offset line position : Nat} {p : Piece} {ps : List Piece}
    (hle : offset ≤ position) (hlt : position < offset + Text.byteLength p.text) :
    CoveredBy (itemsAt offset line (p :: ps)) position ↔ p.reading ≠ .skipped := by
  rw [← @Piece.item?_isSome p offset line, Option.isSome_iff_exists]
  constructor
  · rintro ⟨item, hmem, hfrom, _⟩
    rcases List.mem_append.1 hmem with hmem | hmem
    · exact ⟨item, Option.mem_toList.1 hmem⟩
    · have := offset_le_of_mem_itemsAt hmem
      omega
  · rintro ⟨item, hitem⟩
    refine ⟨item, List.mem_append_left _ (Option.mem_toList.2 hitem), ?_⟩
    rw [(Piece.item?_place hitem).1]
    exact ⟨hle, hlt⟩

theorem coveredBy_itemsAt_of_le {offset line position : Nat} {p : Piece} {ps : List Piece}
    (hle : offset + Text.byteLength p.text ≤ position) :
    CoveredBy (itemsAt offset line (p :: ps)) position ↔
      CoveredBy (itemsAt (offset + Text.byteLength p.text) (line + Text.lineFeeds p.text) ps)
        position := by
  constructor
  · rintro ⟨item, hmem, hfrom, hto⟩
    rcases List.mem_append.1 hmem with hmem | hmem
    · rw [(Piece.item?_place (Option.mem_toList.1 hmem)).1] at hto
      exact absurd hto (Nat.not_lt.2 hle)
    · exact ⟨item, hmem, hfrom, hto⟩
  · rintro ⟨item, hmem, hcovers⟩
    exact ⟨item, List.mem_append_right _ hmem, hcovers⟩

/-- Between `before` and `after`, no item covers any of `gap`, and `gap` cannot be
made longer. The script begins at `offset`. -/
structure IsGap (items : List Item) (offset : Nat) (before gap after : List Char) : Prop where
  uncovered : ∀ first c last, gap = first ++ c :: last →
    ¬ CoveredBy items (offset + Text.byteLength (before ++ first))
  left : ∀ first c, before = first ++ [c] → CoveredBy items (offset + Text.byteLength first)
  right : ∀ c last, after = c :: last →
    CoveredBy items (offset + Text.byteLength (before ++ gap))

theorem coveredBy_itemsAt_append {offset line : Nat} {p : Piece} {ps : List Piece}
    (text : List Char) :
    CoveredBy (itemsAt offset line (p :: ps)) (offset + Text.byteLength (p.text ++ text)) ↔
      CoveredBy (itemsAt (offset + Text.byteLength p.text) (line + Text.lineFeeds p.text) ps)
        (offset + Text.byteLength p.text + Text.byteLength text) := by
  rw [coveredBy_itemsAt_of_le (by simp), Text.byteLength_append, Nat.add_assoc]

section

variable {offset line : Nat} {p : Piece} {ps : List Piece} {before gap after : List Char}

theorem IsGap.of_append_before
    (h : IsGap (itemsAt offset line (p :: ps)) offset (p.text ++ before) gap after) :
    IsGap (itemsAt (offset + Text.byteLength p.text) (line + Text.lineFeeds p.text) ps)
      (offset + Text.byteLength p.text) before gap after := by
  refine ⟨?_, ?_, ?_⟩
  · intro first c last hgap hcovered
    refine h.uncovered first c last hgap ?_
    rw [List.append_assoc]
    exact (coveredBy_itemsAt_append _).2 hcovered
  · intro first c hbefore
    refine (coveredBy_itemsAt_append _).1 (h.left (p.text ++ first) c ?_)
    rw [hbefore, List.append_assoc]
  · intro c last hafter
    have hcovered := h.right c last hafter
    rw [List.append_assoc] at hcovered
    exact (coveredBy_itemsAt_append _).1 hcovered

theorem IsGap.of_append_gap
    (h : IsGap (itemsAt offset line (p :: ps)) offset [] (p.text ++ gap) after) :
    IsGap (itemsAt (offset + Text.byteLength p.text) (line + Text.lineFeeds p.text) ps)
      (offset + Text.byteLength p.text) [] gap after := by
  refine ⟨?_, ?_, ?_⟩
  · intro first c last hgap hcovered
    refine h.uncovered (p.text ++ first) c last (by rw [hgap, List.append_assoc]) ?_
    exact (coveredBy_itemsAt_append _).2 hcovered
  · intro first c hnil
    simp at hnil
  · intro c last hafter
    exact (coveredBy_itemsAt_append _).1 (h.right c last hafter)

end

/-- What no item covers, as far as it goes, stands for nothing. The induction is on
the pieces: the gap lies behind the first of them, or begins with it. -/
theorem IsGap.isSkipped {ps : List Piece} (hcut : IsCut ps) {offset line : Nat}
    {before gap after : List Char} (htext : textOf ps = before ++ (gap ++ after))
    (h : IsGap (itemsAt offset line ps) offset before gap after) : IsSkipped after gap := by
  induction hcut generalizing offset line before gap with
  | nil =>
      obtain ⟨-, hgap, -⟩ : before = [] ∧ gap = [] ∧ after = [] := by simpa using htext.symm
      rw [hgap]
      exact .nil
  | @cons p ps hlexeme hstops _ ih =>
      rw [textOf_cons] at htext
      have hinside : ∀ first c last, p.text = first ++ c :: last →
          (CoveredBy (itemsAt offset line (p :: ps)) (offset + Text.byteLength first) ↔
            p.reading ≠ .skipped) := by
        intro first c last hfirst
        have hpos := Text.byteLength_pos (List.cons_ne_nil c last)
        refine coveredBy_itemsAt_of_lt (Nat.le_add_right ..) ?_
        rw [hfirst, Text.byteLength_append]
        omega
      rcases Text.append_eq_append_cases htext with ⟨inner, rfl, hrest⟩ | ⟨c, inner, hfirst, hrest⟩
      · exact ih hrest h.of_append_before
      by_cases hskipped : p.reading = .skipped
      · -- A character of this piece before the gap would be uncovered.
        obtain rfl : before = [] := by
          rcases List.eq_nil_or_concat before with hnil | ⟨first, x, rfl⟩
          · exact hnil
          · have hcovered := h.left first x (by simp)
            have huncovered := (hinside first x (c :: inner) (by simpa using hfirst)).1
            exact absurd hskipped (huncovered hcovered)
        rw [← List.nil_append (c :: inner), ← hfirst] at hrest
        rcases Text.append_eq_append_cases hrest.symm with ⟨more, rfl, hps⟩ | ⟨x, more, hgap, rfl⟩
        · rw [hps] at hstops
          exact .cons_lexeme (hskipped ▸ hlexeme) hstops (ih hps h.of_append_gap)
        · exact absurd hskipped ((hinside gap x more hgap).1 (h.right x _ rfl))
      · cases gap with
        | nil => exact .nil
        | cons x gap =>
            have hcovered := (hinside before c inner hfirst).2 hskipped
            exact absurd (by simpa using hcovered) (h.uncovered [] x gap rfl)

/-! ### The tiling -/

/-- `span` holds `text` in the script, from one character to another. -/
def HoldsAt (script : List Char) (span : Span) (text : List Char) : Prop :=
  ∃ before after, script = before ++ text ++ after ∧
    span = ⟨Text.byteLength before, Text.byteLength text⟩

/-- The scan covers the script: with its tokens and faults, and with nothing where
the script stands for nothing. -/
structure Tiles (source : String) (scan : Scan) : Prop where
  token : ∀ t ∈ scan.properTokens, 0 < t.span.length ∧
    HoldsAt source.toList t.span t.lexeme.toList
  fault : ∀ f ∈ scan.faults, 0 < f.span.length ∧ ∃ text, HoldsAt source.toList f.span text
  items_ordered : scan.items.Pairwise fun first second => first.span.stop ≤ second.span.offset
  tokens_increasing : scan.tokens.Pairwise fun first second =>
    first.span.offset < second.span.offset
  faults_increasing : scan.faults.Pairwise fun first second =>
    first.span.offset < second.span.offset
  /-- What no span covers consists of blanks and comments. -/
  gap : ∀ before gap after, source.toList = before ++ gap ++ after →
    IsGap scan.items 0 before gap after → IsSkipped after gap
  last : ∃ line, scan.tokens = scan.properTokens ++
    [⟨.endOfText, "", none, line, ⟨source.utf8ByteSize, 0⟩⟩]
  kind : ∀ t ∈ scan.properTokens, t.kind ≠ .endOfText

theorem Covers.length_pos {item : Item} {before : List Char} {p : Piece}
    (h : Covers item before p) : 0 < item.span.length := by
  rw [h.span]
  exact Text.byteLength_pos h.lexeme.ne_nil

theorem Covers.holdsAt {item : Item} {before after : List Char} {p : Piece}
    (h : Covers item before p) : HoldsAt (before ++ p.text ++ after) item.span p.text :=
  ⟨before, after, rfl, h.span⟩

theorem items_pairwise_stop_le (script : List Char) :
    (ofText script).items.Pairwise fun first second =>
      first.span.stop ≤ second.span.offset := by
  obtain ⟨ps, hps, rfl⟩ := exists_isCut script
  rw [ofText_textOf hps]
  exact pairwise_itemsAt 0 1 ps

theorem items_pairwise_offset_lt (script : List Char) :
    (ofText script).items.Pairwise fun first second =>
      first.span.offset < second.span.offset := by
  refine (items_pairwise_stop_le script).imp_of_mem ?_
  intro first second hfirst _ hle
  obtain ⟨before, p, after, _, hcovers⟩ := exists_covers hfirst
  have := hcovers.length_pos
  rw [Span.stop] at hle
  omega

theorem filterMap_pairwise_offset_lt {α : Type} {view : Item → Option α} {span : α → Span}
    (hspan : ∀ item x, view item = some x → item.span = span x) (script : List Char) :
    ((ofText script).items.filterMap view).Pairwise fun first second =>
      (span first).offset < (span second).offset := by
  refine List.pairwise_filterMap.2 ((items_pairwise_offset_lt script).imp ?_)
  intro first second hlt x hx y hy
  rw [← hspan first x hx, ← hspan second y hy]
  exact hlt

theorem properTokens_pairwise (script : List Char) :
    (ofText script).properTokens.Pairwise fun first second =>
      first.span.offset < second.span.offset := by
  apply filterMap_pairwise_offset_lt
  intro item t
  exact Item.span_of_token?

theorem faults_pairwise (script : List Char) :
    (ofText script).faults.Pairwise fun first second =>
      first.span.offset < second.span.offset := by
  apply filterMap_pairwise_offset_lt
  intro item f
  exact Item.span_of_fault?

theorem offset_lt_of_mem_properTokens {script : List Char} {t : Token}
    (h : t ∈ (ofText script).properTokens) : t.span.offset < Text.byteLength script := by
  obtain ⟨before, p, after, rfl, hcovers⟩ := exists_covers (mem_properTokens_iff.1 h)
  have hpos := Text.byteLength_pos hcovers.lexeme.ne_nil
  have hspan : t.span = ⟨Text.byteLength before, Text.byteLength p.text⟩ := hcovers.span
  rw [hspan]
  show Text.byteLength before < Text.byteLength (before ++ p.text ++ after)
  rw [Text.byteLength_append, Text.byteLength_append]
  omega

/-- No character is lost, and none is reported twice. -/
theorem scan_tiles (source : String) : Tiles source (scan source) where
  token t ht := by
    obtain ⟨before, p, after, hsource, hcovers⟩ := exists_covers (mem_properTokens_iff.1 ht)
    obtain ⟨-, hlexeme, -⟩ := Piece.item?_eq_token hcovers.item?_eq
    rw [hsource, hlexeme, String.toList_ofList]
    exact ⟨hcovers.length_pos, hcovers.holdsAt⟩
  fault f hf := by
    obtain ⟨before, p, after, hsource, hcovers⟩ := exists_covers (mem_faults_iff.1 hf)
    rw [hsource]
    exact ⟨hcovers.length_pos, p.text, hcovers.holdsAt⟩
  items_ordered := items_pairwise_stop_le source.toList
  tokens_increasing := by
    refine List.pairwise_append.2 ⟨properTokens_pairwise _, List.pairwise_singleton .., ?_⟩
    intro t ht t' ht'
    rw [List.mem_singleton.1 ht', scan, endToken_ofText]
    exact offset_lt_of_mem_properTokens ht
  faults_increasing := faults_pairwise source.toList
  gap before gap after hsource hgap := by
    obtain ⟨ps, hps, htext⟩ := exists_isCut source.toList
    rw [scan, ← htext, ofText_textOf hps] at hgap
    rw [hsource, List.append_assoc] at htext
    exact hgap.isSkipped hps htext
  last := by
    refine ⟨1 + Text.lineFeeds source.toList, ?_⟩
    rw [tokens, scan, endToken_ofText, Text.byteLength_toList]
  kind t ht := by
    obtain ⟨before, p, after, -, hcovers⟩ := exists_covers (mem_properTokens_iff.1 ht)
    obtain ⟨hreading, -⟩ := Piece.item?_eq_token hcovers.item?_eq
    exact kind_ne_endOfText (hreading ▸ hcovers.lexeme)

end Scan

end ScriptLexer
