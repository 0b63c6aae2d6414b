import ScriptLexer.Proofs.Closing
import ScriptLexer.Proofs.Rescanning

/-!
Blanks behind a text that leaves no string and no comment open. Every other lexeme stops at
a blank, save that a line comment takes the blanks up to the end of its line. So the pieces
of such a text can be followed by blanks, and the items are the same.
-/

namespace ScriptLexer

namespace Lexeme

theorem stops_lineComment {body rest : List Char} (hbody : '\n' ∉ body)
    (hrest : ∀ x ∈ rest.head?, x = '\n') : Stops ('/' :: '/' :: body) rest :=
  stops_of_next? (Reading.next?_lineComment rfl hbody hrest)

theorem not_isDigit_of_mem_blanks {c : Char} (hc : c ∈ blanks) : c.isDigit = false ∧ c ≠ '.' := by
  have hall : blanks.all (fun c => !c.isDigit && c != '.') = true := by decide
  simpa using List.all_eq_true.1 hall c hc

/-- What is not left open stops at every blank, save that a comment goes on to the end of
its line. -/
theorem stops_blank_or_lineComment {text : List Char} {reading : Reading}
    (h : Lexeme text reading)
    (hclosed : ∀ kind, reading = .fault kind → kind.isUnterminated = false) :
    (∀ c ∈ blanks, ∀ rest, Stops text (c :: rest)) ∨
      ∃ body, '\n' ∉ body ∧ text = '/' :: '/' :: body ∧ reading = .skipped := by
  cases reading with
  | token kind literal =>
      left
      intro c hc rest
      exact Scan.stops_token_blank h hc
  | skipped =>
      cases h with
      | lineComment hbody => exact .inr ⟨_, hbody, rfl, rfl⟩
      | blockComment hbody => exact .inl fun c _ rest => stops_blockComment hbody (c :: rest)
      | blank hblank => exact .inl fun c _ rest => stops_blank hblank (c :: rest)
  | fault kind =>
      have hkind := hclosed kind rfl
      left
      intro c hc rest
      obtain ⟨hdigit, hpoint⟩ := not_isDigit_of_mem_blanks hc
      cases h with
      | openComment | openString => contradiction
      | greatInteger hdigits =>
          rw [stops_integer_iff hdigits]
          refine ⟨by simpa using hdigit, ?_⟩
          intro x more heq
          exact absurd (List.cons.inj heq).1 hpoint
      | greatDecimal hwhole hfraction =>
          rw [stops_decimal_iff hwhole hfraction]
          simpa using hdigit
      | stray hstray => exact stops_of_next? (Reading.next?_stray hstray rfl)

end Lexeme

namespace Scan

/-! ### Blanks behind a text -/

/-- No string and no comment of the source is without an end. -/
def IsTerminated (source : String) : Prop :=
  ∀ f ∈ (scan source).faults, f.kind.isUnterminated = false

theorem IsTerminated.of_mem {ps : List Piece} (hps : IsCut ps)
    (h : IsTerminated (String.ofList (textOf ps))) {p : Piece} (hp : p ∈ ps) (kind : Fault.Kind)
    (hreading : p.reading = .fault kind) : kind.isUnterminated = false := by
  obtain ⟨before, after, rfl⟩ := List.append_of_mem hp
  have hitem (offset line : Nat) : p.item? offset line =
      some (.fault ⟨kind, line, ⟨offset, Text.byteLength p.text⟩⟩) := by
    rw [Piece.item?, hreading]
  apply h ⟨kind, _, ⟨_, Text.byteLength p.text⟩⟩
  rw [mem_faults_iff, scan, String.toList_ofList, ofText_textOf hps]
  exact mem_itemsAt_iff.2 ⟨before, p, after, rfl, hitem _ _⟩

@[simp] theorem itemsAt_map_ofBlank (offset line : Nat) (text : List Char) :
    itemsAt offset line (text.map Piece.ofBlank) = [] := by
  induction text generalizing offset line with
  | nil => rfl
  | cons c text ih => exact ih _ _

section

variable {blanks : List Char} (hblanks : ∀ c ∈ blanks, c ∈ Lexeme.blanks)

include hblanks

/-- Blanks can be put behind a piece that is not left open. A line comment takes those of
its line, so it has to end with one of them, or before what comes next. -/
theorem exists_isCut_piece {p : Piece} {qs : List Piece} (hp : Lexeme p.text p.reading)
    (hclosed : ∀ kind, p.reading = .fault kind → kind.isUnterminated = false)
    (hqs : IsCut qs) (hne : blanks ≠ [])
    (hmeets : '\n' ∈ blanks ∨ Lexeme.Stops p.text (textOf qs)) :
    ∃ rs, IsCut (rs ++ qs) ∧ textOf rs = p.text ++ blanks ∧
      ∀ offset line, itemsAt offset line rs = itemsAt offset line [p] := by
  rcases Lexeme.stops_blank_or_lineComment hp hclosed with hstops | ⟨body, hbody, htext, hreading⟩
  · obtain ⟨c, more, rfl⟩ := List.exists_cons_of_ne_nil hne
    refine ⟨p :: (c :: more).map Piece.ofBlank, ?_, ?_, ?_⟩
    · exact .cons hp (hstops c (hblanks c List.mem_cons_self) _) (isCut_blanks_append hblanks hqs)
    · rw [textOf_cons, textOf_map_ofBlank]
    · intro offset line
      rw [itemsAt, itemsAt_map_ofBlank, itemsAt, itemsAt]
  · -- Up to the first line feed, the blanks belong to the comment.
    obtain ⟨taken, left, rfl, htaken, hleft⟩ : ∃ taken left, blanks = taken ++ left ∧
        '\n' ∉ taken ∧ ∀ x ∈ (left ++ textOf qs).head?, x = '\n' := by
      by_cases hfeed : '\n' ∈ blanks
      · obtain ⟨taken, left, rfl, htaken⟩ := List.eq_append_cons_of_mem hfeed
        exact ⟨taken, '\n' :: left, rfl, htaken, by simp⟩
      · have hstops := hmeets.resolve_left hfeed
        rw [htext] at hstops
        exact ⟨blanks, [], (List.append_nil _).symm, hfeed, hstops.eq_lineFeed hbody⟩
    have hlonger : '\n' ∉ body ++ taken := by simp [hbody, htaken]
    have hblank : ∀ c ∈ left, c ∈ Lexeme.blanks := fun c hc =>
      hblanks c (List.mem_append_right _ hc)
    refine ⟨⟨'/' :: '/' :: (body ++ taken), .skipped⟩ :: left.map Piece.ofBlank, ?_, ?_, ?_⟩
    · rw [← textOf_map_ofBlank left, ← textOf_append] at hleft
      exact .cons (.lineComment hlonger) (Lexeme.stops_lineComment hlonger hleft)
        (isCut_blanks_append hblank hqs)
    · simp [htext]
    · intro offset line
      simp [itemsAt, Piece.item?, hreading]

theorem exists_isCut_blanks {ps qs : List Piece} (hps : IsCut ps)
    (hclosed : ∀ p ∈ ps, ∀ kind, p.reading = .fault kind → kind.isUnterminated = false)
    (hqs : IsCut qs) (hmeets : '\n' ∈ blanks ∨ IsCut (ps ++ qs)) :
    ∃ rs, IsCut (rs ++ qs) ∧ textOf rs = textOf ps ++ blanks ∧
      ∀ offset line, itemsAt offset line rs = itemsAt offset line ps := by
  by_cases hne : blanks = []
  · subst hne
    exact ⟨ps, hmeets.resolve_left List.not_mem_nil, (List.append_nil _).symm, fun _ _ => rfl⟩
  cases ps using List.reverseRecOn with
  | nil =>
      refine ⟨blanks.map Piece.ofBlank, isCut_blanks_append hblanks hqs, ?_, ?_⟩
      · rw [textOf_map_ofBlank, textOf_nil, List.nil_append]
      · intro offset line
        rw [itemsAt_map_ofBlank, itemsAt]
  | append_singleton done p =>
      have hlexeme : Lexeme p.text p.reading := hps.lexeme (by simp)
      have hmeets' : '\n' ∈ blanks ∨ Lexeme.Stops p.text (textOf qs) := by
        refine hmeets.imp_right fun hcut => ?_
        rw [List.append_assoc] at hcut
        cases hcut.of_append with
        | cons _ hstops _ => exact hstops
      obtain ⟨rs, hcut, htext, hitems⟩ :=
        exists_isCut_piece hblanks hlexeme (hclosed p (by simp)) hqs hne hmeets'
      refine ⟨done ++ rs, ?_, by simp [htext], ?_⟩
      · rw [List.append_assoc]
        have hlonger : textOf (rs ++ qs) = textOf [p] ++ (blanks ++ textOf qs) := by
          simp [htext]
        apply hps.append_longer hcut hlonger
        intro text first hstops
        apply hstops.append_of_ne_nil
        · simp [hlexeme.ne_nil]
        · -- What comes behind a point is a blank, so no fraction begins there.
          obtain ⟨c, more, rfl⟩ := List.exists_cons_of_ne_nil hne
          intro _ y hy
          obtain rfl := Option.some.inj hy
          exact (Lexeme.not_isDigit_of_mem_blanks (hblanks c List.mem_cons_self)).1
      · intro offset line
        rw [itemsAt_append, itemsAt_append, hitems]

end

theorem items_eq_nil_of_blanks {source : String} (h : ∀ c ∈ source.toList, c ∈ Lexeme.blanks) :
    (scan source).items = [] := by
  have hcut := isCut_blanks_append h .nil
  have htext : textOf (source.toList.map Piece.ofBlank ++ []) = source.toList := by
    rw [List.append_nil, textOf_map_ofBlank]
  rw [scan, ← htext, ofText_textOf hcut, List.append_nil]
  exact itemsAt_map_ofBlank ..

end Scan

end ScriptLexer
