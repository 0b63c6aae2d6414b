import ScriptLexer.Proofs.Encoding
import ScriptLexer.Proofs.TrailingBlanks

/-!
Comments can be blanked. A comment in whose place blanks stand, as many as it has bytes and
with its line feeds where they were, is a run of lexemes instead of one, and both add
nothing. What comes behind it begins at the same byte and on the same line. What comes
before it stops at the first blank as it did at the slash: only an unclosed string or
comment would go on, or a line comment, and none of these stops at a slash.
-/

namespace ScriptLexer

namespace Text

/-- A blank for every byte of a text but those of its line feeds. -/
def blankOut (text : List Char) : List Char :=
  text.flatMap fun c => if c = '\n' then ['\n'] else List.replicate c.utf8Size ' '

theorem blankOut_cons (c : Char) (text : List Char) :
    blankOut (c :: text) =
      (if c = '\n' then ['\n'] else List.replicate c.utf8Size ' ') ++ blankOut text :=
  List.flatMap_cons

def blankByte (byte : UInt8) : UInt8 :=
  if byte = 10 then 10 else 32

theorem mem_blanks_of_mem_blankOut {text : List Char} : ∀ c ∈ blankOut text, c ∈ Lexeme.blanks := by
  intro c hc
  obtain ⟨x, -, hc⟩ := List.mem_flatMap.1 hc
  split at hc
  · rw [List.mem_singleton.1 hc]
    decide
  · rw [List.eq_of_mem_replicate hc]
    decide

theorem byteLength_replicate_space (n : Nat) : byteLength (List.replicate n ' ') = n := by
  induction n with
  | zero => rfl
  | succ n ih => rw [List.replicate_succ, byteLength_cons, ih, Nat.add_comm]; rfl

theorem byteLength_blankOut (text : List Char) : byteLength (blankOut text) = byteLength text := by
  induction text with
  | nil => rfl
  | cons c text ih =>
      rw [blankOut_cons, byteLength_append, ih, byteLength_cons]
      split
      · next hline => rw [hline]; rfl
      · rw [byteLength_replicate_space]

theorem lineFeeds_blankOut (text : List Char) : lineFeeds (blankOut text) = lineFeeds text := by
  induction text with
  | nil => rfl
  | cons c text ih =>
      rw [blankOut_cons, lineFeeds_append, ih, lineFeeds_cons]
      split
      · rfl
      · have hnone : '\n' ∉ List.replicate c.utf8Size ' ' := by
          intro hmem
          exact absurd (List.eq_of_mem_replicate hmem) (by decide)
        rw [lineFeeds, List.count_eq_zero.2 hnone]

theorem encodeUtf8_blankOut (text : List Char) :
    encodeUtf8 (blankOut text) = (encodeUtf8 text).map blankByte := by
  induction text with
  | nil => rfl
  | cons c text ih =>
      have hcons : encodeUtf8 (c :: text) = String.utf8EncodeChar c ++ encodeUtf8 text := rfl
      rw [blankOut_cons, encodeUtf8_append, ih, hcons, List.map_append]
      congr 1
      split
      · next hline => rw [hline]; rfl
      · next hline =>
        have hbytes : (String.utf8EncodeChar c).map blankByte =
            List.replicate c.utf8Size 32 := by
          rw [List.eq_replicate_iff, List.length_map, String.length_utf8EncodeChar]
          refine ⟨rfl, fun blank hblank => ?_⟩
          obtain ⟨byte, hbyte, rfl⟩ := List.mem_map.1 hblank
          refine if_neg ?_
          rintro rfl
          exact hline (eq_ofNat_of_mem_utf8EncodeChar hbyte (by decide))
        have hblanks : ∀ n, encodeUtf8 (List.replicate n ' ') = List.replicate n 32 := by
          intro n
          induction n with
          | zero => rfl
          | succ n ih => exact congrArg (32 :: ·) ih
        rw [hbytes, hblanks]

end Text

namespace Lexeme

/-- A text that stops, but not at the end of a line, also stops at a blank. -/
theorem Stops.blank {text rest : List Char} {reading : Reading} {x : Char}
    (hstops : Stops text (x :: rest)) (h : Lexeme text reading) (hx : x ≠ '\n') {c : Char}
    (hc : c ∈ blanks) (more : List Char) : Stops text (c :: more) := by
  have hclosed : ∀ kind, reading = .fault kind → kind.isUnterminated = false := by
    rintro kind rfl
    by_contra hkind
    have hnil := hstops.eq_nil (exists_of_unterminated h (eq_true_of_ne_false hkind))
    contradiction
  rcases stops_blank_or_lineComment h hclosed with hblank | ⟨body, hbody, rfl, -⟩
  · exact hblank c hc more
  · exact absurd (hstops.eq_lineFeed hbody x rfl) hx

end Lexeme

namespace Scan

theorem IsCut.append_blank {done ahead qs : List Piece} {x c : Char} {rest more : List Char}
    (h : IsCut (done ++ ahead)) (hahead : textOf ahead = x :: rest) (hx : x ≠ '\n')
    (hqs : IsCut qs) (htext : textOf qs = c :: more) (hc : c ∈ Lexeme.blanks) :
    IsCut (done ++ qs) := by
  induction done with
  | nil => exact hqs
  | cons p done ih =>
      cases h with
      | cons hlexeme hstops hdone =>
          refine .cons hlexeme ?_ (ih hdone)
          replace hstops : Lexeme.Stops p.text (textOf (done ++ ahead)) := hstops
          rw [textOf_append, hahead] at hstops
          show Lexeme.Stops p.text (textOf (done ++ qs))
          rw [textOf_append, htext]
          by_cases hnil : textOf done = []
          · rw [hnil] at hstops ⊢
            exact hstops.blank hlexeme hx hc more
          · -- What comes behind a point is a blank, so no fraction begins there.
            apply (hstops.mono (List.prefix_append ..)).append_of_ne_nil hnil
            intro _ y hy
            obtain rfl := Option.some.inj hy
            exact (Lexeme.not_isDigit_of_mem_blanks hc).1

/-- A text of the same measures that is skipped as well can stand for a skipped piece. -/
theorem ofText_replace_skipped {done ahead : List Piece} {p : Piece} {blanks : List Char}
    (h : IsCut (done ++ p :: ahead)) (hskipped : p.reading = .skipped)
    (hnew : IsCut (done ++ (blanks.map Piece.ofBlank ++ ahead)))
    (hbytes : Text.byteLength blanks = Text.byteLength p.text)
    (hlines : Text.lineFeeds blanks = Text.lineFeeds p.text) :
    ofText (textOf done ++ (blanks ++ textOf ahead)) =
      ofText (textOf done ++ (p.text ++ textOf ahead)) := by
  have hold := ofText_textOf h
  have hblanked := ofText_textOf hnew
  have hitem (offset line : Nat) : p.item? offset line = none := by
    rw [Piece.item?, hskipped]
  rw [itemsAt_append, itemsAt, hitem] at hold
  rw [itemsAt_append, itemsAt_append, itemsAt_map_ofBlank] at hblanked
  simp only [textOf_append, textOf_cons, textOf_map_ofBlank, Text.byteLength_append,
    Text.lineFeeds_append, hbytes, hlines] at hold hblanked
  rw [hold, hblanked]
  rfl

theorem ofText_blankOut {done ahead : List Piece} {p : Piece} {rest : List Char}
    (h : IsCut (done ++ p :: ahead)) (hskipped : p.reading = .skipped)
    (hslash : p.text = '/' :: rest) :
    ofText (textOf done ++ (Text.blankOut p.text ++ textOf ahead)) =
      ofText (textOf done ++ (p.text ++ textOf ahead)) := by
  have hblanks : IsCut ((Text.blankOut p.text).map Piece.ofBlank ++ ahead) := by
    refine isCut_blanks_append Text.mem_blanks_of_mem_blankOut ?_
    cases h.of_append with
    | cons _ _ hahead => exact hahead
  have hfirst : textOf (p :: ahead) = '/' :: (rest ++ textOf ahead) := by
    rw [textOf_cons, hslash]
    rfl
  have hblank : textOf ((Text.blankOut p.text).map Piece.ofBlank ++ ahead) =
      ' ' :: (Text.blankOut rest ++ textOf ahead) := by
    rw [textOf_append, textOf_map_ofBlank, hslash]
    rfl
  have hnew := h.append_blank hfirst (by decide) hblanks hblank (by decide)
  exact ofText_replace_skipped h hskipped hnew (Text.byteLength_blankOut _)
    (Text.lineFeeds_blankOut _)

/-- Blanks in the place of a comment, one for each byte, and its line feeds. -/
def blanked (comment : String) : String :=
  String.ofList (Text.blankOut comment.toList)

/-- Where the loop reads `comment` as a comment, blanks in its place give the same scan. -/
theorem scan_blanked {before comment after : String} {items : List Item} {c d : Cursor}
    (hreached : Reached (before ++ comment ++ after).toList items c)
    (hoffset : c.offset = before.utf8ByteSize)
    (hread : Reading.next? c = some (.skipped, d)) (hlexeme : d.lexeme = comment.toList)
    (hcomment : ['/', '/'] <+: comment.toList ∨ ['/', '*'] <+: comment.toList) :
    Text.encodeUtf8 (blanked comment).toList =
        (Text.encodeUtf8 comment.toList).map Text.blankByte ∧
      scan (before ++ blanked comment ++ after) = scan (before ++ comment ++ after) := by
  rw [String.toList_append, String.toList_append, List.append_assoc] at hreached
  rw [← Text.byteLength_toList] at hoffset
  obtain ⟨done, ahead, hdone, hrest, hbetween⟩ := hreached.exists_between_of_offset hoffset
  cases ahead with
  | nil =>
      rw [Reading.next?_eq_none_iff.2 hbetween.rest] at hread
      contradiction
  | cons p ahead =>
      rw [hbetween.step.1] at hread
      obtain ⟨hskipped, rfl⟩ := Prod.mk.inj (Option.some.inj hread)
      have htext : p.text = comment.toList := hlexeme
      rw [textOf_cons, htext] at hrest
      have hafter : textOf ahead = after.toList := List.append_cancel_left hrest
      obtain ⟨rest, hslash⟩ : ∃ rest, p.text = '/' :: rest := by
        rw [htext]
        rcases hcomment with ⟨rest, hrest⟩ | ⟨rest, hrest⟩
        · exact ⟨_, hrest.symm⟩
        · exact ⟨_, hrest.symm⟩
      have hscan := ofText_blankOut hbetween.isCut hskipped hslash
      rw [hdone, hafter, htext] at hscan
      rw [blanked, String.toList_ofList, scan, scan, String.toList_append, String.toList_append,
        String.toList_append, String.toList_append, String.toList_ofList, List.append_assoc,
        List.append_assoc]
      exact ⟨Text.encodeUtf8_blankOut _, hscan⟩

/-- A comment of two lines with a quote in it, between a number and a point. -/
theorem scan_blanked_point :
    let before := "1"
    let comment := "/*é\n\"*/"
    let after := ".5"
    let items : List Item := [.token ⟨.integerNumber, "1", some (.integer 1), 1, ⟨0, 1⟩⟩]
    let c : Cursor := ⟨0, ['1'], (comment ++ after).toList, 1, 1⟩
    let d : Cursor := ⟨1, comment.toList, after.toList, 1, 2⟩
    Reached (before ++ comment ++ after).toList items c ∧ c.offset = before.utf8ByteSize ∧
      Reading.next? c = some (.skipped, d) ∧ d.lexeme = comment.toList ∧
      (['/', '/'] <+: comment.toList ∨ ['/', '*'] <+: comment.toList) ∧
      blanked comment = "    \n   " ∧
      Text.encodeUtf8 (blanked comment).toList =
        (Text.encodeUtf8 comment.toList).map Text.blankByte ∧
      scan (before ++ blanked comment ++ after) = scan (before ++ comment ++ after) := by
  intro before comment after items c d
  have hnumber : Reading.next? (.ofText (before ++ comment ++ after).toList) =
      some (.token .integerNumber (some (.integer 1)), c) := by
    decide +kernel
  have hreached : Reached (before ++ comment ++ after).toList items c := .step .start hnumber
  have hread : Reading.next? c = some (.skipped, d) := by decide +kernel
  have hcomment : ['/', '/'] <+: comment.toList ∨ ['/', '*'] <+: comment.toList :=
    .inr (by decide +kernel)
  have hblanked : blanked comment = "    \n   " := by decide +kernel
  exact ⟨hreached, rfl, hread, rfl, hcomment, hblanked,
    scan_blanked hreached rfl hread rfl hcomment⟩

end Scan

end ScriptLexer
