import ScriptLexer.Proofs.TrailingBlanks
import Mathlib.Data.List.Forall2

/-!
A script whose line feeds all get a carriage return in front of them. Within a string or a
comment the two take the place of the line feed, and behind a line comment the carriage
return becomes part of it; anywhere else it is a blank of its own. In none of these places
does a lexeme come to an end earlier or later, since a line feed and a carriage return both
end what a blank ends, and neither is part of a closing mark. So the pieces of the new
script are those of the old one with the returns added, but for the place of a return
behind a line comment, where it adds nothing either way.
-/

namespace ScriptLexer

namespace Text

/-- A text with a carriage return in front of every line feed. -/
def addReturns (text : List Char) : List Char :=
  text.flatMap fun c => if c = '\n' then ['\r', '\n'] else [c]

@[simp] theorem addReturns_nil : addReturns [] = [] := rfl

@[simp] theorem addReturns_lineFeed (text : List Char) :
    addReturns ('\n' :: text) = '\r' :: '\n' :: addReturns text := rfl

theorem addReturns_cons {c : Char} (h : c ≠ '\n') (text : List Char) :
    addReturns (c :: text) = c :: addReturns text := by
  rw [addReturns, List.flatMap_cons, if_neg h]
  rfl

@[simp] theorem addReturns_append (s t : List Char) :
    addReturns (s ++ t) = addReturns s ++ addReturns t :=
  List.flatMap_append

theorem addReturns_eq_self {text : List Char} (h : '\n' ∉ text) : addReturns text = text := by
  induction text with
  | nil => rfl
  | cons c text ih =>
      obtain ⟨hc, htext⟩ := not_or.1 (mt List.mem_cons.2 h)
      rw [addReturns_cons (Ne.symm hc), ih htext]

theorem mem_addReturns {c : Char} {text : List Char} (h : c ∈ addReturns text) :
    c = '\r' ∨ c ∈ text := by
  obtain ⟨x, hx, hc⟩ := List.mem_flatMap.1 h
  split at hc
  · next hline =>
    subst hline
    rcases List.mem_cons.1 hc with hreturn | hfeed
    · exact .inl hreturn
    · rw [List.mem_singleton.1 hfeed]
      exact .inr hx
  · rw [List.mem_singleton.1 hc]
    exact .inr hx

@[simp] theorem lineFeeds_addReturns (text : List Char) :
    lineFeeds (addReturns text) = lineFeeds text := by
  induction text with
  | nil => rfl
  | cons c text ih =>
      by_cases hline : c = '\n'
      · subst hline
        rw [addReturns_lineFeed, lineFeeds_cons, if_neg (by decide), Nat.zero_add, lineFeeds_cons,
          lineFeeds_cons, ih]
      · rw [addReturns_cons hline, lineFeeds_cons, lineFeeds_cons, ih]

theorem commentEnd_infix_of_addReturns {text : List Char}
    (h : Lexeme.commentEnd <:+: addReturns text) : Lexeme.commentEnd <:+: text := by
  induction text with
  | nil => exact h
  | cons c text ih =>
      by_cases hline : c = '\n'
      · subst hline
        rw [addReturns_lineFeed, List.infix_cons_iff, List.infix_cons_iff] at h
        rcases h with h | h | h
        · exact absurd (List.cons_prefix_cons.1 h).1 (by decide)
        · exact absurd (List.cons_prefix_cons.1 h).1 (by decide)
        · exact (ih h).trans (List.suffix_cons _ _).isInfix
      · rw [addReturns_cons hline, List.infix_cons_iff] at h
        rcases h with h | h
        · -- A slash comes first behind the star, so it did so without the returns.
          obtain ⟨rfl, hslash⟩ := List.cons_prefix_cons.1 h
          cases text with
          | nil => simp at hslash
          | cons d text =>
              by_cases hd : d = '\n'
              · subst hd
                exact absurd (List.cons_prefix_cons.1 hslash).1 (by decide)
              · rw [addReturns_cons hd] at hslash
                obtain ⟨rfl, -⟩ := List.cons_prefix_cons.1 hslash
                exact ⟨[], text, rfl⟩
        · exact (ih h).trans (List.suffix_cons _ _).isInfix

end Text

def Literal.addReturns : Literal → Literal
  | text value => text (String.ofList (Text.addReturns value.toList))
  | integer value => integer value
  | float value => float value

def Reading.addReturns : Reading → Reading
  | skipped => skipped
  | token kind literal => token kind (literal.map Literal.addReturns)
  | fault kind => fault kind

/-! ### Lexemes -/

namespace Lexeme

open Text

def IsLineComment (text : List Char) : Prop :=
  ∃ body, '\n' ∉ body ∧ text = '/' :: '/' :: body

/-- What stops, and is no line comment, still does so if the rest gets its returns: it
stops at any blank, and before the first of them nothing has changed. -/
theorem Stops.addReturns_rest {text rest : List Char} {reading : Reading}
    (hstops : Stops text rest) (h : Lexeme text reading)
    (hcomment : ¬ IsLineComment text) : Stops text (addReturns rest) := by
  cases rest with
  | nil => exact hstops
  | cons x more =>
      have hclosed : ∀ kind, reading = .fault kind → kind.isUnterminated = false := by
        rintro kind rfl
        by_contra hkind
        have hnil := hstops.eq_nil (exists_of_unterminated h (eq_true_of_ne_false hkind))
        contradiction
      have hblank : ∀ c ∈ blanks, ∀ behind, Stops text (c :: behind) :=
        (stops_blank_or_lineComment h hclosed).resolve_right
          fun ⟨body, hbody, htext, _⟩ => hcomment ⟨body, hbody, htext⟩
      by_cases hx : x = '\n'
      · subst hx
        exact hblank '\r' (by decide) _
      rw [addReturns_cons hx]
      cases more with
      | nil => exact hstops
      | cons y more =>
          by_cases hy : y = '\n'
          · subst hy
            have hfirst : Stops text [x] := hstops.mono ⟨'\n' :: more, rfl⟩
            apply hfirst.append_of_ne_nil (List.cons_ne_nil x [])
            intro _ z hz
            obtain rfl := Option.some.inj hz
            decide
          · rw [addReturns_cons hy]
            have hfirst : Stops text [x, y] := hstops.mono ⟨more, rfl⟩
            exact hfirst.append ⟨List.cons_ne_nil _ _, by simp⟩ (addReturns more)

/-- `text` is a lexeme with its returns as well, and stops where it did. -/
structure KeepsReturns (text : List Char) (reading : Reading) : Prop where
  lexeme : Lexeme (addReturns text) reading.addReturns
  stops : ∀ rest, Stops text rest → Stops (addReturns text) (addReturns rest)

theorem KeepsReturns.of_eq {text text' : List Char} {reading : Reading}
    (htext : addReturns text = text') (hlexeme : Lexeme text' reading.addReturns)
    (hstops : ∀ rest, Stops text rest → Stops text' (addReturns rest)) :
    KeepsReturns text reading := by
  subst htext
  exact ⟨hlexeme, hstops⟩

theorem keepsReturns_of_not_mem {text : List Char} {reading : Reading} (h : Lexeme text reading)
    (hline : '\n' ∉ text) (hreading : reading.addReturns = reading)
    (hcomment : ¬ IsLineComment text) : KeepsReturns text reading := by
  refine .of_eq (addReturns_eq_self hline) ?_ ?_
  · rw [hreading]
    exact h
  · intro rest hstops
    exact hstops.addReturns_rest h hcomment

theorem lineFeed_not_mem_of_digits {digits : List Char} (h : Digits digits) : '\n' ∉ digits :=
  fun hmem => absurd (h.2 _ hmem) (by decide)

theorem lineFeed_not_mem_decimal {whole fraction : List Char} (hwhole : Digits whole)
    (hfraction : Digits fraction) : '\n' ∉ whole ++ '.' :: fraction := by
  simp [lineFeed_not_mem_of_digits hwhole, lineFeed_not_mem_of_digits hfraction]

theorem not_mem_addReturns_of_quote {quote : Char} {body : List Char} (hquote : quote ∈ quotes)
    (hbody : quote ∉ body) : quote ∉ addReturns body := by
  intro hmem
  rcases mem_addReturns hmem with rfl | hmem
  · exact absurd hquote (by decide)
  · exact hbody hmem

theorem ne_lineFeed_of_quote {quote : Char} (hquote : quote ∈ quotes) : quote ≠ '\n' :=
  ne_of_mem_of_not_mem hquote (by decide)

theorem keepsReturns {text : List Char} {reading : Reading} (h : Lexeme text reading)
    (hline : text ≠ ['\n']) (hcomment : ¬ IsLineComment text) :
    KeepsReturns text reading := by
  have hplain (hmem : '\n' ∉ text) (hreading : reading.addReturns = reading) :=
    keepsReturns_of_not_mem h hmem hreading hcomment
  cases h with
  | mark hc =>
      have hne := ne_of_mem_of_not_mem hc (show '\n' ∉ marks by decide)
      exact hplain (by simpa using hne.symm) rfl
  | operator hc =>
      have hne := ne_of_mem_of_not_mem hc (show '\n' ∉ operators by decide)
      exact hplain (by simpa using hne.symm) rfl
  | operatorEqual hc =>
      have hne := ne_of_mem_of_not_mem hc (show '\n' ∉ operators by decide)
      exact hplain (by simpa using hne.symm) rfl
  | slash => exact hplain (by decide) rfl
  | lineComment hbody => exact absurd ⟨_, hbody, rfl⟩ hcomment
  | blank => exact hplain (by simpa [eq_comm] using hline) rfl
  | stray hc =>
      refine hplain ?_ rfl
      rintro hmem
      obtain rfl := List.mem_singleton.1 hmem
      exact hc.not_starter (by decide)
  | integer hdigits => exact hplain (lineFeed_not_mem_of_digits hdigits) rfl
  | greatInteger hdigits => exact hplain (lineFeed_not_mem_of_digits hdigits) rfl
  | decimal hwhole hfraction => exact hplain (lineFeed_not_mem_decimal hwhole hfraction) rfl
  | greatDecimal hwhole hfraction => exact hplain (lineFeed_not_mem_decimal hwhole hfraction) rfl
  | word hfirst hmore =>
      refine hplain ?_ rfl
      intro hmem
      rcases List.mem_cons.1 hmem with rfl | hmem
      · exact absurd hfirst (by decide)
      · exact absurd (hmore _ hmem) (by decide)
  | blockComment hbody =>
      have hbody' := closedBy_iff.2 (mt commentEnd_infix_of_addReturns (closedBy_iff.1 hbody))
      refine .of_eq ?_ (.blockComment hbody') fun rest _ => stops_blockComment hbody' _
      simp [addReturns_cons, addReturns_eq_self (show '\n' ∉ commentEnd by decide)]
  | openComment hbody =>
      have hbody' := mt commentEnd_infix_of_addReturns hbody
      refine .of_eq ?_ (.openComment hbody') fun rest hstops => ?_
      · simp [addReturns_cons]
      · obtain rfl := hstops.eq_nil (exists_of_openComment hbody)
        exact stops_nil _
  | @string quote body hquote hbody =>
      have hbody' := not_mem_addReturns_of_quote hquote hbody
      have hlexeme := Lexeme.string hquote hbody'
      refine .of_eq ?_ ?_ fun rest _ => stops_string hquote hbody' _
      · simp [addReturns_cons (ne_lineFeed_of_quote hquote)]
      · simpa [Reading.addReturns, Literal.addReturns] using hlexeme
  | openString hquote hbody =>
      have hbody' := not_mem_addReturns_of_quote hquote hbody
      refine .of_eq ?_ (.openString hquote hbody') fun rest hstops => ?_
      · exact addReturns_cons (ne_lineFeed_of_quote hquote) _
      · obtain rfl := hstops.eq_nil (exists_of_openString hquote hbody)
        exact stops_nil _

end Lexeme

namespace Scan

open Text

/-! ### Pieces -/

def Piece.addReturns (p : Piece) : Piece :=
  ⟨Text.addReturns p.text, p.reading.addReturns⟩

theorem IsCut.exists_ofBlank_cons {ps : List Piece} (h : IsCut ps) {c : Char} {more : List Char}
    (hc : c ∈ Lexeme.blanks) (htext : textOf ps = c :: more) :
    ∃ qs, ps = Piece.ofBlank c :: qs ∧ IsCut qs ∧ textOf qs = more := by
  obtain ⟨qs, hqs, hmore⟩ := exists_isCut more
  have hcut : IsCut (Piece.ofBlank c :: qs) :=
    .cons (.blank hc) (Lexeme.stops_blank hc _) hqs
  refine ⟨qs, h.unique hcut ?_, hqs, hmore⟩
  rw [htext, ← hmore]
  rfl

/-- `qs` are pieces of the text of `ps` with its returns, and add what those of `ps` do if
each gets its own. -/
structure GainsReturns (ps qs : List Piece) : Prop where
  isCut : IsCut qs
  text : textOf qs = addReturns (textOf ps)
  items : ∀ offset line, itemsAt offset line qs = itemsAt offset line (ps.map Piece.addReturns)

namespace GainsReturns

variable {ps qs : List Piece} (h : GainsReturns ps qs)

include h

theorem lineFeed : GainsReturns (Piece.ofBlank '\n' :: ps)
    (Piece.ofBlank '\r' :: Piece.ofBlank '\n' :: qs) where
  isCut := by
    have hblanks : ∀ c ∈ ['\r', '\n'], c ∈ Lexeme.blanks := by simp [Lexeme.blanks]
    exact isCut_blanks_append hblanks h.isCut
  text := by simp [h.text, Piece.ofBlank]
  items offset line := by
    show itemsAt (offset + 1 + 1) (line + 0 + 1) qs = itemsAt (offset + 2) (line + 1) _
    exact h.items _ _

/-- Behind a line comment the return becomes part of the comment. -/
theorem lineComment {body : List Char} (hbody : '\n' ∉ body)
    (hstops : Lexeme.Stops ('/' :: '/' :: body) (textOf ps)) (hps : IsCut ps) :
    ∃ qs', GainsReturns (⟨'/' :: '/' :: body, .skipped⟩ :: ps) qs' := by
  have hself : addReturns ('/' :: '/' :: body) = '/' :: '/' :: body :=
    addReturns_eq_self (by simp [hbody])
  cases hrest : textOf ps with
  | nil =>
      obtain rfl := eq_nil_of_textOf_eq_nil hps hrest
      refine ⟨[⟨'/' :: '/' :: body, .skipped⟩], ?_, ?_, ?_⟩
      · exact .cons (.lineComment hbody) hstops .nil
      · rw [textOf_cons, textOf_nil, List.append_nil, hself]
      · intro offset line
        simp [itemsAt, Piece.item?, Piece.addReturns, Reading.addReturns]
  | cons x more =>
      obtain rfl : x = '\n' := hstops.eq_lineFeed hbody x (by simp [hrest])
      have htext := h.text
      rw [hrest, addReturns_lineFeed] at htext
      obtain ⟨rs, rfl, hrs, hmore⟩ := h.isCut.exists_ofBlank_cons (by decide) htext
      have hlonger : '\n' ∉ body ++ ['\r'] := by simp [hbody]
      refine ⟨⟨'/' :: '/' :: (body ++ ['\r']), .skipped⟩ :: rs, ?_, ?_, ?_⟩
      · exact .cons (.lineComment hlonger) (Lexeme.stops_lineComment hlonger (by simp [hmore])) hrs
      · rw [textOf_cons, hmore, textOf_cons, addReturns_append, hself, hrest, addReturns_lineFeed]
        simp
      · intro offset line
        have hlast : '/' :: '/' :: (body ++ ['\r']) = '/' :: '/' :: body ++ ['\r'] := rfl
        show itemsAt _ _ rs = itemsAt (offset + byteLength (addReturns ('/' :: '/' :: body)))
          (line + lineFeeds (addReturns ('/' :: '/' :: body))) (ps.map Piece.addReturns)
        rw [← h.items, hself, hlast, byteLength_append, lineFeeds_append, ← Nat.add_assoc,
          ← Nat.add_assoc]
        rfl

theorem cons {text : List Char} {reading : Reading} (hkeeps : Lexeme.KeepsReturns text reading)
    (hstops : Lexeme.Stops text (textOf ps)) :
    GainsReturns (⟨text, reading⟩ :: ps) (Piece.addReturns ⟨text, reading⟩ :: qs) where
  isCut := by
    refine .cons hkeeps.lexeme ?_ h.isCut
    rw [h.text]
    exact hkeeps.stops _ hstops
  text := by
    rw [textOf_cons, h.text, textOf_cons, addReturns_append]
    rfl
  items offset line := by
    rw [List.map_cons, itemsAt, itemsAt, h.items]

end GainsReturns

theorem exists_gainsReturns {ps : List Piece} (h : IsCut ps) : ∃ qs, GainsReturns ps qs := by
  induction h with
  | nil => exact ⟨[], .nil, rfl, fun _ _ => rfl⟩
  | @cons p ps hlexeme hstops hps ih =>
      obtain ⟨qs, hqs⟩ := ih
      obtain ⟨text, reading⟩ := p
      by_cases hline : text = ['\n']
      · subst hline
        obtain rfl : reading = .skipped := (Lexeme.blank (by decide)).unique hlexeme
        exact ⟨_, hqs.lineFeed⟩
      by_cases hcomment : Lexeme.IsLineComment text
      · obtain ⟨body, hbody, rfl⟩ := hcomment
        obtain rfl : reading = .skipped := (Lexeme.lineComment hbody).unique hlexeme
        exact hqs.lineComment hbody hstops hps
      · exact ⟨_, hqs.cons (Lexeme.keepsReturns hlexeme hline hcomment) hstops⟩

end Scan

/-! ### Tokens and faults -/

/-- Two spans that hold the same stretch of a script, without the returns and with them. -/
def Span.SameWithReturns (script : List Char) (span span' : Span) : Prop :=
  ∃ before text after, script = before ++ text ++ after ∧
    span = ⟨Text.byteLength before, Text.byteLength text⟩ ∧
    span' = ⟨Text.byteLength (Text.addReturns before), Text.byteLength (Text.addReturns text)⟩

structure Token.SameWithReturns (script : List Char) (t t' : Token) : Prop where
  kind : t'.kind = t.kind
  lexeme : t'.lexeme = String.ofList (Text.addReturns t.lexeme.toList)
  literal : t'.literal = t.literal.map Literal.addReturns
  line : t'.line = t.line
  span : Span.SameWithReturns script t.span t'.span

structure Fault.SameWithReturns (script : List Char) (f f' : Fault) : Prop where
  kind : f'.kind = f.kind
  line : f'.line = f.line
  message : f'.message = f.message
  span : Span.SameWithReturns script f.span f'.span

namespace Scan

inductive Item.SameWithReturns (script : List Char) : Item → Item → Prop
  | token {t t' : Token} (h : t.SameWithReturns script t') :
      SameWithReturns script (.token t) (.token t')
  | fault {f f' : Fault} (h : f.SameWithReturns script f') :
      SameWithReturns script (.fault f) (.fault f')

open Text

section

variable {script : List Char}

theorem forall₂_item? {before after : List Char} {p : Piece}
    (hscript : script = before ++ p.text ++ after) :
    List.Forall₂ (Item.SameWithReturns script)
      (p.item? (byteLength before) (1 + lineFeeds before)).toList
      (p.addReturns.item? (byteLength (addReturns before)) (1 + lineFeeds before)).toList := by
  obtain ⟨text, reading⟩ := p
  cases reading with
  | skipped => exact .nil
  | token kind literal =>
      refine .cons (.token ⟨rfl, ?_, rfl, rfl, before, text, after, hscript, rfl, rfl⟩) .nil
      rw [String.toList_ofList]
      rfl
  | fault kind =>
      exact .cons (.fault ⟨rfl, rfl, rfl, before, text, after, hscript, rfl, rfl⟩) .nil

theorem forall₂_itemsAt {before : List Char} {ps : List Piece}
    (hscript : script = before ++ textOf ps) :
    List.Forall₂ (Item.SameWithReturns script)
      (itemsAt (byteLength before) (1 + lineFeeds before) ps)
      (itemsAt (byteLength (addReturns before)) (1 + lineFeeds before)
        (ps.map Piece.addReturns)) := by
  induction ps generalizing before with
  | nil => exact .nil
  | cons p ps ih =>
      rw [textOf_cons, ← List.append_assoc] at hscript
      have hothers := ih hscript
      have hlines : lineFeeds p.addReturns.text = lineFeeds p.text := lineFeeds_addReturns _
      rw [addReturns_append, byteLength_append, byteLength_append, lineFeeds_append,
        ← Nat.add_assoc] at hothers
      rw [itemsAt, List.map_cons, itemsAt, hlines]
      exact List.rel_append (forall₂_item? hscript) hothers

end

theorem forall₂_items (script : List Char) :
    List.Forall₂ (Item.SameWithReturns script) (ofText script).items
      (ofText (addReturns script)).items := by
  obtain ⟨ps, hps, rfl⟩ := exists_isCut script
  obtain ⟨qs, hqs⟩ := exists_gainsReturns hps
  rw [← hqs.text, ofText_textOf hps, ofText_textOf hqs.isCut, hqs.items]
  exact forall₂_itemsAt (List.nil_append _).symm

theorem endToken_addReturns (script : List Char) :
    (ofText script).endToken.SameWithReturns script (ofText (addReturns script)).endToken := by
  rw [endToken_ofText, endToken_ofText, lineFeeds_addReturns]
  exact ⟨rfl, rfl, rfl, rfl, script, [], [], by simp, rfl, rfl⟩

/-- Every token and every fault is found again in the script with a carriage return in front
of each line feed: on the same line, and with returns in its own text as well. -/
theorem scan_addReturns (source : String) :
    List.Forall₂ (Token.SameWithReturns source.toList) (scan source).tokens
        (scan (String.ofList (addReturns source.toList))).tokens ∧
      List.Forall₂ (Fault.SameWithReturns source.toList) (scan source).faults
        (scan (String.ofList (addReturns source.toList))).faults := by
  have hitems := forall₂_items source.toList
  have hend := endToken_addReturns source.toList
  rw [← String.toList_ofList (l := addReturns source.toList)] at hitems hend
  constructor
  · refine List.rel_append (List.rel_filterMap ?_ hitems) (.cons hend .nil)
    rintro _ _ (h | h)
    · exact .some h
    · exact .none
  · refine List.rel_filterMap ?_ hitems
    rintro _ _ (h | h)
    · exact .none
    · exact .some h

end Scan

end ScriptLexer
