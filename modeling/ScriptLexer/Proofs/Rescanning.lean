import ScriptLexer.Proofs.Stopping
import ScriptLexer.Proofs.Tiling

/-!
Tokens written out and scanned again. A token is a lexeme wherever it was found, and the
lexeme alone says what it stands for; so a list of tokens is a list of pieces, and their
text is scanned into these as soon as each of them stops where the next begins. Behind a
blank this is always so: nothing that is a token goes on with one. Places are lost in
between, and only they; what is left of a token is its content.
-/

namespace ScriptLexer

def Token.content (t : Token) : Kind × String × Option Literal :=
  (t.kind, t.lexeme, t.literal)

namespace Scan

/-! ### Contents -/

def Piece.content? (p : Piece) : Option (Kind × String × Option Literal) :=
  match p.reading with
  | .token kind literal => some (kind, String.ofList p.text, literal)
  | _ => none

theorem map_content_itemsAt (offset line : Nat) (ps : List Piece) :
    ((itemsAt offset line ps).filterMap Item.token?).map Token.content =
      ps.filterMap Piece.content? := by
  induction ps generalizing offset line with
  | nil => rfl
  | cons p ps ih =>
      obtain ⟨text, reading⟩ := p
      rw [itemsAt, List.filterMap_append, List.map_append, ih, List.filterMap_cons]
      cases reading <;> rfl

theorem faults_itemsAt_eq_nil_iff {offset line : Nat} {ps : List Piece} :
    (itemsAt offset line ps).filterMap Item.fault? = [] ↔
      ∀ p ∈ ps, ∀ kind, p.reading ≠ .fault kind := by
  induction ps generalizing offset line with
  | nil => simp [itemsAt]
  | cons p ps ih =>
      obtain ⟨text, reading⟩ := p
      rw [itemsAt, List.filterMap_append, List.append_eq_nil_iff, ih, List.forall_mem_cons]
      cases reading <;> simp [Piece.item?, Item.fault?]

section

variable {ps : List Piece}

theorem content_ofText (h : IsCut ps) :
    (ofText (textOf ps)).tokens.map Token.content =
      ps.filterMap Piece.content? ++ [(.endOfText, "", none)] := by
  rw [ofText_textOf h, tokens, List.map_append, properTokens, map_content_itemsAt]
  rfl

theorem faults_ofText_eq_nil_iff (h : IsCut ps) :
    (ofText (textOf ps)).faults = [] ↔ ∀ p ∈ ps, ∀ kind, p.reading ≠ .fault kind := by
  rw [ofText_textOf h]
  exact faults_itemsAt_eq_nil_iff

end

end Scan

/-! ### Tokens as pieces -/

/-- The token is one of some script, and not the one at its end. -/
def Token.Occurs (t : Token) : Prop :=
  ∃ source, t ∈ (scan source).tokens ∧ t.kind ≠ .endOfText

namespace Scan

theorem lexeme_of_mem_properTokens {source : String} {t : Token}
    (h : t ∈ (scan source).properTokens) : Lexeme t.lexeme.toList (.token t.kind t.literal) := by
  obtain ⟨before, p, after, _, hcovers⟩ := exists_covers (mem_properTokens_iff.1 h)
  obtain ⟨hreading, hlexeme, _⟩ := Piece.item?_eq_token hcovers.item?_eq
  rw [← hreading, hlexeme, String.toList_ofList]
  exact hcovers.lexeme

theorem lexeme_of_occurs {t : Token} (h : t.Occurs) :
    Lexeme t.lexeme.toList (.token t.kind t.literal) := by
  obtain ⟨source, hmem, hkind⟩ := h
  rcases List.mem_append.1 hmem with hproper | hlast
  · exact lexeme_of_mem_properTokens hproper
  · rw [List.mem_singleton.1 hlast] at hkind
    contradiction

def Piece.ofToken (t : Token) : Piece :=
  ⟨t.lexeme.toList, .token t.kind t.literal⟩

@[simp] theorem content?_ofToken (t : Token) : (Piece.ofToken t).content? = some t.content := by
  simp [Piece.content?, Piece.ofToken, Token.content]

/-! ### Blanks -/

def Piece.ofBlank (c : Char) : Piece :=
  ⟨[c], .skipped⟩

@[simp] theorem textOf_map_ofBlank (text : List Char) : textOf (text.map Piece.ofBlank) = text := by
  induction text with
  | nil => rfl
  | cons c text ih =>
      rw [List.map_cons, textOf_cons, ih]
      rfl

theorem isCut_blanks_append {text : List Char} {ps : List Piece}
    (htext : ∀ c ∈ text, c ∈ Lexeme.blanks) (hps : IsCut ps) :
    IsCut (text.map Piece.ofBlank ++ ps) := by
  induction text with
  | nil => exact hps
  | cons c text ih =>
      obtain ⟨hc, htext⟩ := List.forall_mem_cons.1 htext
      exact .cons (.blank hc) (Lexeme.stops_blank hc _) (ih htext)

theorem stops_token_blank {text rest : List Char} {kind : Kind} {literal : Option Literal}
    (h : Lexeme text (.token kind literal)) {c : Char} (hc : c ∈ Lexeme.blanks) :
    Lexeme.Stops text (c :: rest) := by
  have hall : Lexeme.blanks.all (fun c => !decide (Lexeme.IsWordPart c) && !c.isDigit && c != '=' &&
      c != '/' && c != '*' && c != '.') = true := by decide
  have hblank := List.all_eq_true.1 hall c hc
  simp only [Bool.and_eq_true, Bool.not_eq_true', decide_eq_false_iff_not, bne_iff_ne] at hblank
  obtain ⟨⟨⟨⟨⟨hword, hdigit⟩, hequal⟩, hslash⟩, hstar⟩, hpoint⟩ := hblank
  rw [Lexeme.stops_token_iff h]
  cases kind.growth <;> simp [Lexeme.Growth.GoesOn, *]

/-! ### Writing tokens out -/

/-- The lexemes of the tokens, each with what separates it from the next. -/
def spell (ts : List (Token × String)) : String :=
  String.join (ts.map fun p => p.1.lexeme ++ p.2)

def spelledPieces (ts : List (Token × String)) : List Piece :=
  ts.flatMap fun p => .ofToken p.1 :: p.2.toList.map .ofBlank

@[simp] theorem spelledPieces_cons (p : Token × String) (ts : List (Token × String)) :
    spelledPieces (p :: ts) =
      .ofToken p.1 :: (p.2.toList.map .ofBlank ++ spelledPieces ts) := rfl

theorem textOf_spelledPieces (ts : List (Token × String)) :
    textOf (spelledPieces ts) = (spell ts).toList := by
  rw [spell, String.toList_join]
  induction ts with
  | nil => rfl
  | cons p ts ih => simp [ih, Piece.ofToken]

theorem content?_spelledPieces (ts : List (Token × String)) :
    (spelledPieces ts).filterMap Piece.content? = ts.map (·.1.content) := by
  induction ts with
  | nil => rfl
  | cons p ts ih =>
      have hblanks : (p.2.toList.map Piece.ofBlank).filterMap Piece.content? = [] := by
        simp [Piece.content?, Piece.ofBlank]
      simp [ih, hblanks]

theorem reading_ne_fault_of_mem_spelledPieces {ts : List (Token × String)} {p : Piece}
    (hp : p ∈ spelledPieces ts) (kind : Fault.Kind) : p.reading ≠ .fault kind := by
  obtain ⟨q, _, hq⟩ := List.mem_flatMap.1 hp
  rcases List.mem_cons.1 hq with rfl | hblank
  · simp [Piece.ofToken]
  · obtain ⟨c, _, rfl⟩ := List.mem_map.1 hblank
    simp [Piece.ofBlank]

theorem isCut_spelledPieces {ts : List (Token × String)} (hts : ∀ p ∈ ts, p.1.Occurs)
    (hblank : ∀ p ∈ ts, ∀ c ∈ p.2.toList, c ∈ Lexeme.blanks)
    (hapart : ∀ p ∈ ts.dropLast, p.2 ≠ "") : IsCut (spelledPieces ts) := by
  induction ts with
  | nil => exact .nil
  | cons p ts ih =>
      obtain ⟨ht, hts⟩ := List.forall_mem_cons.1 hts
      obtain ⟨hseparator, hblank⟩ := List.forall_mem_cons.1 hblank
      have hlexeme := lexeme_of_occurs ht
      have hrest : IsCut (spelledPieces ts) := by
        refine ih hts hblank fun q hq => hapart q ?_
        rw [List.dropLast_cons_of_ne_nil (by rintro rfl; contradiction)]
        exact List.mem_cons_of_mem _ hq
      have hstops : Lexeme.Stops p.1.lexeme.toList (p.2.toList ++ textOf (spelledPieces ts)) := by
        cases hp : p.2.toList with
        | cons c separator => exact stops_token_blank hlexeme (hseparator c (by simp [hp]))
        | nil =>
            -- Only behind the last token is there no blank, and nothing else either.
            have hempty : p.2 = "" := String.toList_inj.1 hp
            obtain rfl : ts = [] := by
              by_contra hne
              refine hapart p ?_ hempty
              rw [List.dropLast_cons_of_ne_nil hne]
              exact List.mem_cons_self
            exact Lexeme.stops_nil _
      rw [spelledPieces_cons]
      refine .cons hlexeme ?_ (isCut_blanks_append hseparator hrest)
      rw [textOf_append, textOf_map_ofBlank]
      exact hstops

/-- Tokens of any scripts, written out with blanks between them and scanned again, come
back as they were, and nothing else does. -/
theorem scan_spell (ts : List (Token × String)) (hts : ∀ p ∈ ts, p.1.Occurs)
    (hblank : ∀ p ∈ ts, ∀ c ∈ p.2.toList, c ∈ Lexeme.blanks)
    (hapart : ∀ p ∈ ts.dropLast, p.2 ≠ "") :
    (scan (spell ts)).faults = [] ∧
      (scan (spell ts)).tokens.map Token.content =
        ts.map (·.1.content) ++ [(.endOfText, "", none)] := by
  have hcut := isCut_spelledPieces hts hblank hapart
  rw [scan, ← textOf_spelledPieces]
  constructor
  · rw [faults_ofText_eq_nil_iff hcut]
    intro p hp kind
    exact reading_ne_fault_of_mem_spelledPieces hp kind
  · rw [content_ofText hcut, content?_spelledPieces]

/-- A slash before a string that holds slashes and a line feed, and a whole number before
a point and another, all of them from scripts in which they stood otherwise. -/
theorem scan_spell_slash_string :
    let slash : Token := ⟨.slash, "/", none, 2, ⟨3, 1⟩⟩
    let string : Token := ⟨.string, "'//\n'", some (.text "//\n"), 1, ⟨0, 5⟩⟩
    let number : Token := ⟨.integerNumber, "1", some (.integer 1), 1, ⟨0, 1⟩⟩
    let point : Token := ⟨.dot, ".", none, 1, ⟨1, 1⟩⟩
    let ts := [(slash, " "), (string, "\r\n"), (number, "\t"), (point, " "), (number, "")]
    (∀ p ∈ ts, p.1.Occurs) ∧ (∀ p ∈ ts, ∀ c ∈ p.2.toList, c ∈ Lexeme.blanks) ∧
      (∀ p ∈ ts.dropLast, p.2 ≠ "") ∧ (scan (spell ts)).faults = [] ∧
      (scan (spell ts)).tokens.map Token.content =
        ts.map (·.1.content) ++ [(.endOfText, "", none)] := by
  intro slash string number point ts
  have hslash : slash.Occurs := ⟨"1.\n/", by decide +kernel⟩
  have hstring : string.Occurs := ⟨"'//\n'", by decide +kernel⟩
  have hnumber : number.Occurs := ⟨"1.\n/", by decide +kernel⟩
  have hpoint : point.Occurs := ⟨"1.\n/", by decide +kernel⟩
  have hts : ∀ p ∈ ts, p.1.Occurs := by simp [ts, hslash, hstring, hnumber, hpoint]
  have hblank : ∀ p ∈ ts, ∀ c ∈ p.2.toList, c ∈ Lexeme.blanks := by simp [ts, Lexeme.blanks]
  have hapart : ∀ p ∈ ts.dropLast, p.2 ≠ "" := by simp [ts]
  exact ⟨hts, hblank, hapart, scan_spell ts hts hblank hapart⟩

end Scan

end ScriptLexer
