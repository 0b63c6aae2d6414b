import ScriptLexer.Proofs.Encoding
import ScriptLexer.Proofs.Prompting
import Mathlib.Data.List.Induction

/-!
The lines of a text, with the place of each in the text, and how the prompt comes by
them. The prompt splits bytes, and a text is split here as characters; in UTF-8 the bytes
of a line feed and of a carriage return stand for nothing else, so both ways lead to the
same lines. Both proceed from the front, one line feed after another, and so do the
proofs.
-/

namespace ScriptLexer

namespace Text

/-! ### As characters -/

structure Line where
  text : String
  offset : Nat
  earlier : Nat

def trimReturn (text : List Char) : List Char :=
  if text.getLast? = some '\r' then text.dropLast else text

/-- The lines that lie between line feeds, the first of them at a given place. A carriage
return in front of a line feed belongs to neither line. -/
def placeLines (offset earlier : Nat) : List (List Char) → List Line
  | [] => []
  | [last] => [⟨String.ofList last, offset, earlier⟩]
  | piece :: next :: pieces =>
    ⟨String.ofList (trimReturn piece), offset, earlier⟩ ::
      placeLines (offset + byteLength piece + 1) (earlier + 1) (next :: pieces)

def linesAt (offset earlier : Nat) (text : List Char) : List Line :=
  placeLines offset earlier (pieces '\n' text)

def lines (source : String) : List Line :=
  linesAt 0 0 source.toList

def Line.isBlank (line : Line) : Bool :=
  Prompt.isBlank line.text

section

variable {piece : List Char} (h : '\n' ∉ piece) (offset earlier : Nat)

include h

theorem linesAt_eq_singleton :
    linesAt offset earlier piece = [⟨String.ofList piece, offset, earlier⟩] := by
  rw [linesAt, pieces_eq_singleton h, placeLines]

theorem linesAt_append_cons (text : List Char) :
    linesAt offset earlier (piece ++ '\n' :: text) =
      ⟨String.ofList (trimReturn piece), offset, earlier⟩ ::
        linesAt (offset + byteLength piece + 1) (earlier + 1) text := by
  obtain ⟨next, others, hpieces⟩ := List.exists_cons_of_ne_nil (pieces_ne_nil '\n' text)
  rw [linesAt, linesAt, pieces_append_cons h, hpieces, placeLines]

end

theorem mem_of_mem_trimReturn {piece : List Char} {c : Char} (h : c ∈ trimReturn piece) :
    c ∈ piece := by
  unfold trimReturn at h
  split at h
  · exact List.dropLast_subset piece h
  · exact h

def lineEnds : List (List Char) := [['\n'], ['\r', '\n']]

theorem exists_lineEnd (piece : List Char) :
    ∃ ending ∈ lineEnds, trimReturn piece ++ ending = piece ++ ['\n'] := by
  unfold trimReturn
  split
  · next hlast =>
    obtain ⟨text, rfl⟩ := List.getLast?_eq_some_iff.1 hlast
    exact ⟨['\r', '\n'], by simp [lineEnds], by simp⟩
  · exact ⟨['\n'], by simp [lineEnds], rfl⟩

theorem lineFeed_not_mem_of_mem_linesAt {offset earlier : Nat} {text : List Char} {line : Line}
    (h : line ∈ linesAt offset earlier text) : '\n' ∉ line.text.toList := by
  induction text using pieces_induction '\n' generalizing offset earlier with
  | last piece hpiece =>
      rw [linesAt_eq_singleton hpiece, List.mem_singleton] at h
      simpa [h] using hpiece
  | cons piece text hpiece ih =>
      rw [linesAt_append_cons hpiece] at h
      rcases List.mem_cons.1 h with rfl | h
      · rw [String.toList_ofList]
        exact fun hmem => hpiece (mem_of_mem_trimReturn hmem)
      · exact ih h

theorem measure_line {piece : List Char} (h : '\n' ∉ piece) :
    byteLength (piece ++ ['\n']) = byteLength piece + 1 ∧ lineFeeds (piece ++ ['\n']) = 1 := by
  constructor
  · rw [byteLength_append]
    rfl
  · simp [lineFeeds, List.count_eq_zero.2 h]

/-- `line` is to be found in `text`, where the bytes and the line feeds before it say. -/
def Line.StandsIn (line : Line) (text : List Char) : Prop :=
  ∃ before after, text = before ++ line.text.toList ++ after ∧
    line.offset = byteLength before ∧ line.earlier = lineFeeds before

theorem standsIn_of_mem_linesAt (first : List Char) {text : List Char} {line : Line}
    (h : line ∈ linesAt (byteLength first) (lineFeeds first) text) :
    line.StandsIn (first ++ text) := by
  induction text using pieces_induction '\n' generalizing first with
  | last piece hpiece =>
      rw [linesAt_eq_singleton hpiece, List.mem_singleton] at h
      exact ⟨first, [], by simp [h], by simp [h]⟩
  | cons piece text hpiece ih =>
      rw [linesAt_append_cons hpiece] at h
      have hsplit : piece ++ '\n' :: text = piece ++ ['\n'] ++ text := by simp
      rw [hsplit]
      rcases List.mem_cons.1 h with rfl | h
      · obtain ⟨ending, -, hending⟩ := exists_lineEnd piece
        refine ⟨first, ending ++ text, ?_, rfl, rfl⟩
        rw [← hending, String.toList_ofList]
        simp only [List.append_assoc]
      · have hfirst : byteLength first + byteLength piece + 1 =
            byteLength (first ++ (piece ++ ['\n'])) ∧
            lineFeeds first + 1 = lineFeeds (first ++ (piece ++ ['\n'])) := by
          rw [byteLength_append, lineFeeds_append, (measure_line hpiece).1, (measure_line hpiece).2]
          exact ⟨Nat.add_assoc .., rfl⟩
        rw [hfirst.1, hfirst.2] at h
        rw [← List.append_assoc]
        exact ih _ h

/-! ### As bytes -/

theorem lineFeed_not_mem_encodeUtf8 {text : List Char} (h : '\n' ∉ text) :
    Prompt.lineFeed ∉ encodeUtf8 text := by
  intro hmem
  obtain ⟨c, hc, hbyte⟩ := List.mem_flatMap.1 hmem
  obtain rfl : c = '\n' := eq_ofNat_of_mem_utf8EncodeChar hbyte (by decide)
  contradiction

theorem getLast?_ne_carriageReturn {c : Char} (hc : c ≠ '\r') (before : List UInt8) :
    (before ++ String.utf8EncodeChar c).getLast? ≠ some Prompt.carriageReturn := by
  rcases List.eq_nil_or_concat (String.utf8EncodeChar c) with hnil | ⟨front, byte, hbytes⟩
  · exact absurd hnil String.utf8EncodeChar_ne_nil
  · rw [hbytes, List.concat_eq_append, ← List.append_assoc, List.getLast?_concat]
    intro heq
    obtain rfl := Option.some.inj heq
    have hmem : Prompt.carriageReturn ∈ String.utf8EncodeChar c := by simp [hbytes]
    exact hc (eq_ofNat_of_mem_utf8EncodeChar hmem (by decide))

theorem trimReturn_encodeUtf8 (text : List Char) :
    Prompt.trimReturn (encodeUtf8 text) = encodeUtf8 (trimReturn text) := by
  cases text using List.reverseRecOn with
  | nil => rfl
  | append_singleton text c =>
      have hone : encodeUtf8 [c] = String.utf8EncodeChar c := List.append_nil _
      rw [encodeUtf8_append, hone]
      by_cases hc : c = '\r'
      · subst hc
        have hreturn : String.utf8EncodeChar '\r' = [Prompt.carriageReturn] := by decide
        simp [hreturn, Prompt.trimReturn, trimReturn]
      · rw [Prompt.trimReturn, if_neg (getLast?_ne_carriageReturn hc _), trimReturn,
          if_neg (by simpa using hc), encodeUtf8_append, hone]

end Text

/-! ### As the prompt delivers them -/

namespace Prompt

open Text

theorem readable_map_encodeUtf8 (texts : List String) :
    readable (texts.map fun text => encodeUtf8 text.toList) = texts := by
  induction texts with
  | nil => rfl
  | cons text texts ih =>
      simpa [readable, decodeUtf8?_encodeUtf8] using ih

/-- Out of the bytes of a text the prompt makes its lines again, save perhaps an empty one
at the end. -/
theorem exists_splitLines_eq (offset earlier : Nat) (text : List Char) :
    ∃ delivered : List Line,
      splitLines (encodeUtf8 text) =
        (delivered.map Line.text).map (fun text => encodeUtf8 text.toList) ∧
      (delivered.filter fun line => !line.isBlank) =
        (linesAt offset earlier text).filter fun line => !line.isBlank := by
  induction text using pieces_induction '\n' generalizing offset earlier with
  | last piece hpiece =>
      rw [splitLines_eq_filter (lineFeed_not_mem_encodeUtf8 hpiece), linesAt_eq_singleton hpiece]
      by_cases hnil : encodeUtf8 piece = []
      · -- Behind the last line feed the prompt delivers no empty line, but that would be blank.
        obtain rfl : piece = [] := by
          cases piece with
          | nil => rfl
          | cons c piece => simp [encodeUtf8] at hnil
        exact ⟨[], rfl, rfl⟩
      · exact ⟨_, by simp [hnil], rfl⟩
  | cons piece text hpiece ih =>
      have hbytes : encodeUtf8 (piece ++ '\n' :: text) =
          encodeUtf8 piece ++ lineFeed :: encodeUtf8 text := encodeUtf8_append ..
      obtain ⟨delivered, hdelivered, hshown⟩ :=
        ih (offset + byteLength piece + 1) (earlier + 1)
      rw [hbytes, splitLines_append_cons (lineFeed_not_mem_encodeUtf8 hpiece),
        trimReturn_encodeUtf8, linesAt_append_cons hpiece, hdelivered]
      refine ⟨⟨String.ofList (Text.trimReturn piece), offset, earlier⟩ :: delivered, by simp, ?_⟩
      rw [List.filter_cons, List.filter_cons, hshown]

section

variable {bytes : List UInt8} {source : String} (h : decodeUtf8? bytes = some source)

include h

theorem allReadable_splitLines : allReadable (splitLines bytes) = true := by
  obtain ⟨delivered, hdelivered, -⟩ := exists_splitLines_eq 0 0 source.toList
  rw [decodeUtf8?_eq_some_iff.1 h, hdelivered]
  simp [allReadable, decodeUtf8?_encodeUtf8]

theorem shown_splitLines :
    shown (splitLines bytes) =
      ((Text.lines source).filter fun line => !line.isBlank).map Line.text := by
  obtain ⟨delivered, hdelivered, hshown⟩ := exists_splitLines_eq 0 0 source.toList
  rw [decodeUtf8?_eq_some_iff.1 h, hdelivered, Text.lines, ← hshown,
    shown, readable_map_encodeUtf8, List.filter_map]
  rfl

end

end Prompt

end ScriptLexer
