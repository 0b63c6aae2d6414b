import ScriptLexer.Proofs.Positions
import ScriptLexer.Proofs.Stopping

/-!
What appending text to a script can change. A piece that at least two bytes follow
stops whatever is appended, since one character settles that, or two of one byte each.
So a script is split where fewer than two bytes are left behind the next piece: the
pieces before this place are those of every longer script, and the pieces behind it end
within the last two bytes, in the longer script as well, because the longest lexeme
there has only become longer.
-/

namespace ScriptLexer

namespace Scan

theorem IsCut.append_longer {done ahead longer : List Piece} {behind : List Char}
    (h : IsCut (done ++ ahead)) (hlonger : IsCut longer)
    (htext : textOf longer = textOf ahead ++ behind)
    (hstops : ∀ text first, Lexeme.Stops text (first ++ textOf ahead) →
      Lexeme.Stops text (first ++ textOf ahead ++ behind)) : IsCut (done ++ longer) := by
  induction done with
  | nil => exact hlonger
  | cons p done ih =>
      cases h with
      | cons hlexeme hp hdone =>
          refine .cons hlexeme ?_ (ih hdone)
          show Lexeme.Stops p.text (textOf (done ++ longer))
          rw [textOf_append, htext, ← List.append_assoc]
          apply hstops
          rw [← textOf_append]
          exact hp

theorem IsCut.append_of_settles {done ahead longer : List Piece} {behind : List Char}
    (h : IsCut (done ++ ahead)) (hahead : Lexeme.Settles (textOf ahead))
    (hlonger : IsCut longer) (htext : textOf longer = textOf ahead ++ behind) :
    IsCut (done ++ longer) := by
  apply h.append_longer hlonger htext
  intro text first hstops
  exact hstops.append (Lexeme.settles_append hahead) behind

/-- Fewer than two bytes are left behind the first of the pieces. -/
def EndsWithin (ahead : List Piece) : Prop :=
  ∀ p after, ahead = p :: after → Text.byteLength (textOf after) < 2

theorem exists_endsWithin (ps : List Piece) :
    ∃ done ahead, ps = done ++ ahead ∧ EndsWithin ahead ∧
      (done = [] ∨ 2 ≤ Text.byteLength (textOf ahead)) := by
  induction ps with
  | nil => exact ⟨[], [], rfl, by simp [EndsWithin], .inl rfl⟩
  | cons p ps ih =>
      by_cases hsize : 2 ≤ Text.byteLength (textOf ps)
      · obtain ⟨done, ahead, rfl, hends, hdone⟩ := ih
        refine ⟨p :: done, ahead, rfl, hends, .inr ?_⟩
        rcases hdone with rfl | hdone
        · exact hsize
        · exact hdone
      · refine ⟨[], p :: ps, rfl, ?_, .inl rfl⟩
        rintro p' after heq
        obtain ⟨rfl, rfl⟩ := List.cons.inj heq
        exact Nat.lt_of_not_le hsize

theorem stop_le_of_mem_itemsAt {item : Item} {offset line : Nat} {ps : List Piece}
    (h : item ∈ itemsAt offset line ps) :
    item.span.stop ≤ offset + Text.byteLength (textOf ps) := by
  obtain ⟨before, p, after, rfl, hitem⟩ := mem_itemsAt_iff.1 h
  rw [(Piece.item?_place hitem).1]
  simp only [Span.stop, textOf_append, textOf_cons, Text.byteLength_append]
  omega

theorem le_stop_of_mem_itemsAt {item : Item} {offset line : Nat} {p : Piece} {ps : List Piece}
    (h : item ∈ itemsAt offset line (p :: ps)) :
    offset + Text.byteLength p.text ≤ item.span.stop := by
  obtain ⟨before, q, after, heq, hitem⟩ := mem_itemsAt_iff.1 h
  rw [(Piece.item?_place hitem).1]
  cases before with
  | nil =>
      obtain ⟨rfl, rfl⟩ := List.cons.inj heq
      simp [Span.stop]
  | cons p' before =>
      obtain ⟨rfl, rfl⟩ := List.cons.inj heq
      simp only [Span.stop, textOf_cons, Text.byteLength_append]
      omega

theorem IsCut.byteLength_le {p q : Piece} {ps qs : List Piece} {behind : List Char}
    (hp : IsCut (p :: ps)) (hq : IsCut (q :: qs))
    (htext : textOf (q :: qs) = textOf (p :: ps) ++ behind) :
    Text.byteLength p.text ≤ Text.byteLength q.text := by
  have hlexeme : Lexeme p.text p.reading := hp.lexeme List.mem_cons_self
  cases hq with
  | cons hlexeme' hstops _ =>
      have hlongest := (Lexeme.isLongest_iff_stops hlexeme').2 hstops
      have hbegins : p.text <+: q.text ++ textOf qs := by
        rw [textOf_cons, textOf_cons, List.append_assoc] at htext
        exact ⟨_, htext.symm⟩
      have hle := hlongest.length_le _ _ hlexeme hbegins
      obtain ⟨more, hmore⟩ := List.prefix_of_prefix_length_le hbegins hlongest.begins hle
      rw [← hmore, Text.byteLength_append]
      exact Nat.le_add_right ..

/-- Behind the place where the next piece ends within the last two bytes, every item
does, in the script and in any longer one. -/
theorem lt_stop_of_endsWithin {ahead longer : List Piece} {behind : List Char}
    (hends : EndsWithin ahead) (hahead : IsCut ahead) (hlonger : IsCut longer)
    (htext : textOf longer = textOf ahead ++ behind) {item : Item} {offset line : Nat}
    (hitem : item ∈ itemsAt offset line longer) (hoffset : ahead = [] → offset = 0) :
    offset + Text.byteLength (textOf ahead) < item.span.stop + 2 := by
  cases ahead with
  | nil =>
      rw [hoffset rfl]
      simp
  | cons p after =>
      have hafter := hends p after rfl
      cases longer with
      | nil => contradiction
      | cons q longer =>
          have hle := hahead.byteLength_le hlonger htext
          have hstop := le_stop_of_mem_itemsAt hitem
          rw [textOf_cons, Text.byteLength_append]
          omega

theorem exists_settled (script behind : List Char) :
    ∃ settled revised added,
      (ofText script).items = settled ++ revised ∧
      (ofText (script ++ behind)).items = settled ++ added ∧
      (∀ item ∈ settled, item.span.stop + 2 ≤ Text.byteLength script) ∧
      (∀ item ∈ revised, Text.byteLength script < item.span.stop + 2) ∧
      ∀ item ∈ added, Text.byteLength script < item.span.stop + 2 := by
  obtain ⟨ps, hps, rfl⟩ := exists_isCut script
  obtain ⟨done, ahead, rfl, hends, hdone⟩ := exists_endsWithin ps
  obtain ⟨longer, hlonger, htext⟩ := exists_isCut (textOf ahead ++ behind)
  have hcut : IsCut (done ++ longer) := by
    rcases hdone with rfl | hsize
    · exact hlonger
    · exact hps.append_of_settles (Lexeme.settles_of_two_le hsize) hlonger htext
  have hscript : textOf (done ++ ahead) ++ behind = textOf (done ++ longer) := by simp [htext]
  have hold := ofText_textOf hps
  have hnew := ofText_textOf hcut
  rw [itemsAt_append] at hold hnew
  have hnil : ahead = [] → 0 + Text.byteLength (textOf done) = 0 := by
    rintro rfl
    rcases hdone with rfl | hsize
    · rfl
    · contradiction
  have hsize : Text.byteLength (textOf (done ++ ahead)) =
      0 + Text.byteLength (textOf done) + Text.byteLength (textOf ahead) := by simp
  rw [hscript]
  refine ⟨_, _, _, congrArg Scan.items hold, congrArg Scan.items hnew, ?_, ?_, ?_⟩
  · intro item hitem
    have hstop := stop_le_of_mem_itemsAt hitem
    rcases hdone with rfl | htwo
    · contradiction
    · omega
  · intro item hitem
    rw [hsize]
    have hsame : textOf ahead = textOf ahead ++ [] := (List.append_nil _).symm
    exact lt_stop_of_endsWithin hends hps.of_append hps.of_append hsame hitem hnil
  · intro item hitem
    rw [hsize]
    exact lt_stop_of_endsWithin hends hps.of_append hlonger htext hitem hnil

theorem filter_append_eq_left {α : Type} {p : α → Bool} {first second : List α}
    (hfirst : ∀ x ∈ first, p x = true) (hsecond : ∀ x ∈ second, p x = false) :
    (first ++ second).filter p = first := by
  rw [List.filter_append, List.filter_eq_self.2 hfirst, List.filter_eq_nil_iff.2, List.append_nil]
  simpa using hsecond

theorem filter_filterMap_span {α : Type} {view : Item → Option α} {span : α → Span}
    (hspan : ∀ item x, view item = some x → item.span = span x) (p : Span → Bool)
    (items : List Item) :
    (items.filterMap view).filter (fun x => p (span x)) =
      (items.filter fun item => p item.span).filterMap view := by
  rw [List.filter_filterMap, List.filterMap_filter]
  congr 1
  funext item
  cases hview : view item with
  | none => simp
  | some x => simp [Option.filter, hspan item x hview]

/-- Appending text to a source leaves the tokens and the faults that end two bytes before
the end of the source as they are and in front of all others. It can only revise what
ends later, and of what ends earlier it adds nothing. -/
theorem settled_prefix_scan_append (source more : String) :
    ((scan source).tokens.filter fun t => t.span.stop + 2 ≤ source.utf8ByteSize) <+:
        (scan (source ++ more)).tokens ∧
      ((scan source).faults.filter fun f => f.span.stop + 2 ≤ source.utf8ByteSize) <+:
        (scan (source ++ more)).faults ∧
      ((scan (source ++ more)).items.filter fun item =>
          item.span.stop + 2 ≤ source.utf8ByteSize) =
        (scan source).items.filter fun item => item.span.stop + 2 ≤ source.utf8ByteSize := by
  obtain ⟨settled, revised, added, hold, hnew, hsettled, hrevised, hadded⟩ :=
    exists_settled source.toList more.toList
  rw [Text.byteLength_toList] at hsettled hrevised hadded
  rw [← String.toList_append] at hnew
  let ends (span : Span) : Bool := span.stop + 2 ≤ source.utf8ByteSize
  have hold' : ((scan source).items.filter fun item => ends item.span) = settled := by
    rw [scan, hold]
    exact filter_append_eq_left (by simpa [ends] using hsettled) (by simpa [ends] using hrevised)
  have hnew' : ((scan (source ++ more)).items.filter fun item => ends item.span) = settled := by
    rw [scan, hnew]
    exact filter_append_eq_left (by simpa [ends] using hsettled) (by simpa [ends] using hadded)
  refine ⟨?_, ?_, hnew'.trans hold'.symm⟩
  · have hend : ends (scan source).endToken.span = false := by
      rw [scan, endToken_ofText, Text.byteLength_toList]
      exact decide_eq_false (by simp only [Span.stop]; omega)
    have htokens := filter_filterMap_span (fun _ _ => Item.span_of_token?) ends (scan source).items
    rw [hold'] at htokens
    show ((scan source).tokens.filter fun t => ends t.span) <+: _
    rw [tokens, List.filter_append, properTokens, htokens, List.filter_cons_of_neg (by simp [hend]),
      List.filter_nil, List.append_nil, tokens, properTokens, scan, hnew, List.filterMap_append,
      List.append_assoc]
    exact List.prefix_append ..
  · have hfaults := filter_filterMap_span (fun _ _ => Item.span_of_fault?) ends (scan source).items
    rw [hold'] at hfaults
    show ((scan source).faults.filter fun f => ends f.span) <+: _
    rw [faults, hfaults, faults, scan, hnew, List.filterMap_append]
    exact List.prefix_append ..

/-- One byte is too few: the whole number of `1.` is not a token of `1.5`. -/
example : ¬ ((scan "1.").tokens.filter fun t => t.span.stop + 1 ≤ 2) <+: (scan "1.5").tokens := by
  decide +kernel

end Scan

end ScriptLexer
