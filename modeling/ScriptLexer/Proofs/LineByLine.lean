import ScriptLexer.Proofs.Lines
import ScriptLexer.Proofs.TrailingBlanks

/-!
A script scanned as a whole, and line by line as the prompt does. Only a string or a
comment without an end would go on into the next line; every other lexeme stops where its
line ends, and a line comment takes a carriage return in front of the line feed with it or
leaves it as a blank. So the pieces of a line, taken by itself, are those of the script,
and what stands between two lines adds nothing. A line that the prompt skips as blank adds
nothing either if the scanner knows all of its blanks.
-/

namespace ScriptLexer

namespace Scan

theorem blanks_of_mem_lineEnds {ending : List Char} (h : ending ∈ Text.lineEnds) :
    (∀ c ∈ ending, c ∈ Lexeme.blanks) ∧ '\n' ∈ ending := by
  have hall : Text.lineEnds.all (fun ending =>
      ending.all Lexeme.blanks.contains && ending.contains '\n') = true := by decide
  simpa using List.all_eq_true.1 hall ending h

/-! ### Line by line -/

theorem itemsAt_eq_map_shift {ps : List Piece} (hps : IsCut ps) (offset earlier : Nat) :
    itemsAt offset (1 + earlier) ps =
      (scan (String.ofList (textOf ps))).items.map (Item.shift offset earlier) := by
  rw [scan, String.toList_ofList, ofText_textOf hps, ← itemsAt_shift, Nat.zero_add]

open Text in
/-- A text can be cut so that its items are those of its lines. -/
theorem exists_isCut_lines {offset earlier : Nat} {text : List Char}
    (hclosed : ∀ line ∈ linesAt offset earlier text, IsTerminated line.text) :
    ∃ ps, IsCut ps ∧ textOf ps = text ∧
      itemsAt offset (1 + earlier) ps = (linesAt offset earlier text).flatMap fun line =>
        (scan line.text).items.map (Item.shift line.offset line.earlier) := by
  induction text using pieces_induction '\n' generalizing offset earlier with
  | last piece hpiece =>
      rw [linesAt_eq_singleton hpiece]
      obtain ⟨ps, hps, rfl⟩ := exists_isCut piece
      exact ⟨ps, hps, rfl, by simp [itemsAt_eq_map_shift hps]⟩
  | cons piece text hpiece ih =>
      rw [linesAt_append_cons hpiece] at hclosed ⊢
      obtain ⟨hfirst, hothers⟩ := List.forall_mem_cons.1 hclosed
      obtain ⟨qs, hqs, rfl, hitems⟩ := ih hothers
      obtain ⟨ending, hending, hpiece'⟩ := exists_lineEnd piece
      obtain ⟨ps, hps, htrim⟩ := exists_isCut (trimReturn piece)
      rw [← htrim] at hfirst
      obtain ⟨hblanks, hfeed⟩ := blanks_of_mem_lineEnds hending
      obtain ⟨rs, hcut, htext, hline⟩ :=
        exists_isCut_blanks hblanks hps (fun p => hfirst.of_mem hps) hqs (.inl hfeed)
      have hrs : textOf rs = piece ++ ['\n'] := by rw [htext, htrim, hpiece']
      refine ⟨rs ++ qs, hcut, by simp [hrs], ?_⟩
      rw [itemsAt_append, hline, itemsAt_eq_map_shift hps, hrs, (measure_line hpiece).1,
        (measure_line hpiece).2, List.flatMap_cons, htrim, ← hitems, Nat.add_assoc, Nat.add_assoc]

theorem line_eq_one {source : String} (h : '\n' ∉ source.toList) {item : Item}
    (hitem : item ∈ (scan source).items) : item.line = 1 := by
  obtain ⟨before, hbefore, -, hline⟩ := isLineAt_item hitem
  have hcount : Text.lineFeeds before = 0 :=
    List.count_eq_zero.2 fun hmem => h (hbefore.subset hmem)
  rw [hline, hcount]

theorem flatMap_filter_eq {α β : Type} {f : α → List β} {p : α → Bool} {l : List α}
    (h : ∀ x ∈ l, p x = false → f x = []) : (l.filter p).flatMap f = l.flatMap f := by
  induction l with
  | nil => rfl
  | cons x l ih =>
      obtain ⟨hx, hl⟩ := List.forall_mem_cons.1 h
      cases hp : p x with
      | true => rw [List.filter_cons_of_pos hp, List.flatMap_cons, List.flatMap_cons, ih hl]
      | false =>
          rw [List.filter_cons_of_neg (by simp [hp]), List.flatMap_cons, hx hp, ih hl,
            List.nil_append]

end Scan

namespace Session

open Scan

def shownLines (source : String) : List Text.Line :=
  (Text.lines source).filter fun line => !line.isBlank

theorem items_eq_flatMap_shownLines {source : String}
    (hclosed : ∀ line ∈ Text.lines source, IsTerminated line.text)
    (hblank : ∀ line ∈ Text.lines source, line.isBlank = true →
      ∀ c ∈ line.text.toList, c = ' ' ∨ c = '\t' ∨ c = '\r') :
    (scan source).items = (shownLines source).flatMap fun line =>
      (scan line.text).items.map (Item.shift line.offset line.earlier) := by
  obtain ⟨ps, hps, htext, hitems⟩ := exists_isCut_lines hclosed
  have hscan : (scan source).items = itemsAt 0 1 ps := by rw [scan, ← htext, ofText_textOf hps]
  rw [hscan, shownLines, flatMap_filter_eq]
  · exact hitems
  · -- The scanner knows all blanks of a line that is not shown.
    intro line hline hshown
    have hnil : (scan line.text).items = [] := by
      apply items_eq_nil_of_blanks
      intro c hc
      have hkind := hblank line hline (by simpa using hshown) c hc
      simp only [Lexeme.blanks, List.mem_cons, List.not_mem_nil, or_false]
      tauto
    rw [hnil, List.map_nil]

/-- What the prompt makes of `bytes`, line by line, and the scan of the `source` that they
encode are the same but for the places. -/
structure LineByLine (bytes : List UInt8) (source : String) : Prop where
  prompt (facilities : Facilities) (hlines : facilities.DeliversLines bytes)
    (format : Listing.Format) : runLines facilities format (facilities.lines bytes) =
    ⟨.success,
      String.join ((shownLines source).map fun line =>
        Listing.render facilities.style format (scan line.text).tokens),
      (shownLines source).flatMap fun line => lineNotices line.text⟩
  tokens : (scan source).properTokens = (shownLines source).flatMap fun line =>
    (scan line.text).properTokens.map (Token.shift line.offset line.earlier)
  faults : (scan source).faults = (shownLines source).flatMap fun line =>
    (scan line.text).faults.map (Fault.shift line.offset line.earlier)
  /-- For the prompt, every line is the first. -/
  first : ∀ line ∈ shownLines source, (∀ t ∈ (scan line.text).properTokens, t.line = 1) ∧
    ∀ f ∈ (scan line.text).faults, f.line = 1
  standsIn : ∀ line ∈ shownLines source, line.StandsIn source.toList

/-- A script none of whose lines leaves anything open, and in whose blank lines the scanner
knows every blank, is scanned as the prompt scans its lines. -/
theorem scan_line_by_line {bytes : List UInt8} {source : String}
    (htext : Text.decodeUtf8? bytes = some source)
    (hclosed : ∀ line ∈ Text.lines source, IsTerminated line.text)
    (hblank : ∀ line ∈ Text.lines source, line.isBlank = true →
      ∀ c ∈ line.text.toList, c = ' ' ∨ c = '\t' ∨ c = '\r') : LineByLine bytes source := by
  have hmem : ∀ line ∈ shownLines source, line ∈ Text.lines source :=
    fun line hline => (List.mem_filter.1 hline).1
  have hitems := items_eq_flatMap_shownLines hclosed hblank
  refine ⟨?_, ?_, ?_, ?_, ?_⟩
  · intro facilities hlines format
    have hall := Prompt.allReadable_splitLines htext
    rw [hlines, runLines_eq, linesOutput, endNotices, Prompt.shown_splitLines htext, List.map_map,
      List.flatMap_map, if_pos hall, if_pos hall, List.append_nil]
    rfl
  · rw [properTokens, hitems, List.filterMap_flatMap]
    simp only [filterMap_token?_shift]
    rfl
  · rw [Scan.faults, hitems, List.filterMap_flatMap]
    simp only [filterMap_fault?_shift]
    rfl
  · intro line hline
    have hfeed := Text.lineFeed_not_mem_of_mem_linesAt (hmem line hline)
    constructor
    · intro t ht
      exact line_eq_one hfeed (mem_properTokens_iff.1 ht)
    · intro f hf
      exact line_eq_one hfeed (mem_faults_iff.1 hf)
  · intro line hline
    exact Text.standsIn_of_mem_linesAt [] (hmem line hline)

/-- The first line ends in a comment, the second is blank, and the third has a fault. -/
theorem scan_line_by_line_comment :
    let bytes : List UInt8 := [49, 46, 47, 47, 34, 13, 10, 32, 9, 13, 10, 64, 46, 53, 10]
    let source := "1.//\"\r\n \t\r\n@.5\n"
    Text.decodeUtf8? bytes = some source ∧
      (∀ line ∈ Text.lines source, IsTerminated line.text) ∧
      (∀ line ∈ Text.lines source, line.isBlank = true →
        ∀ c ∈ line.text.toList, c = ' ' ∨ c = '\t' ∨ c = '\r') ∧ LineByLine bytes source := by
  intro bytes source
  have htext : Text.decodeUtf8? bytes = some source := by decide +kernel
  have hclosed : ∀ line ∈ Text.lines source, IsTerminated line.text := by
    have hall : (Text.lines source).all (fun line =>
        (scan line.text).faults.all fun f => !f.kind.isUnterminated) = true := by decide +kernel
    simpa [IsTerminated] using hall
  have hblank : ∀ line ∈ Text.lines source, line.isBlank = true →
      ∀ c ∈ line.text.toList, c = ' ' ∨ c = '\t' ∨ c = '\r' := by
    have hall : (Text.lines source).all (fun line => !line.isBlank ||
        line.text.toList.all fun c => c = ' ' || c = '\t' || c = '\r') = true := by
      decide +kernel
    intro line hline hshown
    have hline := List.all_eq_true.1 hall line hline
    simpa [hshown, or_assoc] using hline
  exact ⟨htext, hclosed, hblank, scan_line_by_line htext hclosed hblank⟩

end Session

end ScriptLexer
