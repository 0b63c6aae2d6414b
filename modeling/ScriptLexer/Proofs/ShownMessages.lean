import ScriptLexer.Facilities
import ScriptLexer.Proofs.Positions

/-!
Messages on a line of their own. A message of the scanner holds no line feed, since the
characters that it may quote are those that begin no lexeme. So it can stand on one line,
and whoever draws a diagnostic is only asked to let it.
-/

namespace ScriptLexer

namespace Text

theorem mem_pieces {separator : Char} {piece : List Char} (h : separator ∉ piece)
    (before after : List Char) :
    piece ∈ pieces separator (before ++ separator :: (piece ++ separator :: after)) := by
  induction before using pieces_induction separator with
  | last first hfirst =>
      rw [pieces_append_cons hfirst, pieces_append_cons h]
      simp
  | cons first before hfirst ih =>
      rw [List.append_assoc, List.cons_append, pieces_append_cons hfirst]
      exact List.mem_cons_of_mem _ ih

theorem pieces_append_singleton (separator : Char) (text : List Char) :
    pieces separator (text ++ [separator]) = pieces separator text ++ [[]] := by
  induction text using pieces_induction separator with
  | last piece hpiece =>
      rw [pieces_append_cons hpiece, pieces_eq_singleton hpiece]
      rfl
  | cons piece text hpiece ih =>
      rw [List.append_assoc, List.cons_append, pieces_append_cons hpiece,
        pieces_append_cons hpiece, ih, List.cons_append]

/-- One of the lines of `text` holds all of `message`. -/
def OnOneLine (message text : String) : Prop :=
  ∃ line ∈ pieces '\n' text.toList, message.toList <:+: line

theorem OnOneLine.append_lineFeed {message text : String} (h : OnOneLine message text) :
    OnOneLine message (text ++ "\n") := by
  obtain ⟨line, hline, hholds⟩ := h
  have hlonger : (text ++ "\n").toList = text.toList ++ ['\n'] := String.toList_append
  refine ⟨line, ?_, hholds⟩
  rw [hlonger, pieces_append_singleton]
  exact List.mem_append_left _ hline

end Text

/-! ### Diagnostics -/

/-- In every drawing the message stands on one line, unless it is itself on several. -/
def Facilities.ShowsMessages (facilities : Facilities) : Prop :=
  ∀ d : Diagnostic, '\n' ∉ d.fault.message.toList →
    Text.OnOneLine d.fault.message (facilities.draw d)

theorem Facilities.showsMessages_usual : Facilities.usual.ShowsMessages := by
  intro d h
  let line := "  × ".toList ++ d.fault.message.toList
  have hline : '\n' ∉ line := by simp [line, h]
  have hdraw : (Diagnostic.draw d).toList =
      (Fault.code.toList ++ ['\n']) ++ '\n' :: (line ++ '\n' :: d.excerpt) := by
    simp [Diagnostic.draw, line]
  refine ⟨line, ?_, (List.suffix_append _ _).isInfix⟩
  show line ∈ Text.pieces '\n' (Diagnostic.draw d).toList
  rw [hdraw]
  exact Text.mem_pieces hline _ _

/-! ### Faults of a scan -/

theorem Fault.Kind.lineFeed_not_mem_message {kind : Fault.Kind}
    (h : kind ≠ .invalidCharacter '\n') : '\n' ∉ kind.message.toList := by
  unfold message
  split
  case h_3 c =>
    have hc : '\n' ≠ c := by
      rintro rfl
      exact h rfl
    simp [hc]
  all_goals simp

namespace Scan

/-- A line feed begins a lexeme, so it is no invalid character. -/
theorem kind_ne_lineFeed {source : String} {f : Fault} (hf : f ∈ (scan source).faults) :
    f.kind ≠ .invalidCharacter '\n' := by
  obtain ⟨before, p, after, -, hcovers⟩ := exists_covers (mem_faults_iff.1 hf)
  obtain ⟨text, reading⟩ := p
  have hlexeme : Lexeme text reading := hcovers.lexeme
  obtain rfl : reading = .fault f.kind := Piece.reading_of_item?_eq_fault hcovers.item?_eq
  intro hkind
  rw [hkind] at hlexeme
  cases hlexeme with
  | stray hstray => exact hstray.not_starter (by decide)

theorem lineFeed_not_mem_message {source : String} {f : Fault} (hf : f ∈ (scan source).faults) :
    '\n' ∉ f.message.toList := by
  have hkind := Fault.Kind.lineFeed_not_mem_message (kind_ne_lineFeed hf)
  have hline : '\n' ∉ Number.digitsOf f.line :=
    fun hmem => absurd (Number.isDigit_of_mem_digitsOf _ hmem) (by decide)
  have hmessage : f.message.toList =
      f.kind.message.toList ++ (" at line ".toList ++ Number.digitsOf f.line) := by
    simp [Fault.message, Number.digitsOf]
  simp [hmessage, hkind, hline]

end Scan

end ScriptLexer
