import ScriptLexer.Diagnostic
import ScriptLexer.Proofs.Tiling

/-!
Diagnostics show the script where its faults are. What a label cuts out of the
script is the faulty text; the line on which it places that text is counted in
another way than the line of the fault. Both count a line feed once, with or without
a carriage return before it, so they differ by the carriage returns that stand alone.
A pair of both characters is never cut in two: no faulty text begins with a line feed,
as a line feed between lexemes is a lexeme of its own and stands for nothing.
-/

namespace ScriptLexer

namespace Text

/-- The carriage returns of a text, with `rest` behind it, that no line feed follows. -/
def loneReturns : List Char → List Char → Nat
  | [], _ => 0
  | c :: text, rest =>
    (if c = '\r' ∧ '\n' ∉ (text ++ rest).head? then 1 else 0) + loneReturns text rest

theorem loneReturns_cons_of_ne {c : Char} (hc : c ≠ '\r') (text rest : List Char) :
    loneReturns (c :: text) rest = loneReturns text rest := by
  simp [loneReturns, hc]

theorem loneReturns_return {text rest : List Char} (h : '\n' ∉ (text ++ rest).head?) :
    loneReturns ('\r' :: text) rest = 1 + loneReturns text rest := by
  rw [loneReturns, if_pos ⟨rfl, h⟩]

theorem loneReturns_return_lineFeed (text rest : List Char) :
    loneReturns ('\r' :: '\n' :: text) rest = loneReturns text rest := by
  simp [loneReturns]

theorem loneReturns_eq_zero_iff {text rest : List Char} :
    loneReturns text rest = 0 ↔
      ∀ first last, text = first ++ '\r' :: last → '\n' ∈ (last ++ rest).head? := by
  induction text with
  | nil => simp [loneReturns]
  | cons c text ih =>
      rw [loneReturns, Nat.add_eq_zero_iff, ih]
      constructor
      · rintro ⟨hc, htext⟩ first last hsplit
        rcases List.cons_eq_append_iff.1 hsplit with ⟨rfl, hlast⟩ | ⟨first, rfl, hfirst⟩
        · obtain ⟨rfl, rfl⟩ := List.cons.inj hlast
          by_contra hfeed
          rw [if_pos ⟨rfl, hfeed⟩] at hc
          contradiction
        · exact htext first last hfirst
      · intro hall
        refine ⟨if_neg ?_, fun first last htext => hall (c :: first) last (by rw [htext]; rfl)⟩
        rintro ⟨rfl, hfeed⟩
        exact hfeed (hall [] text rfl)

/-- A label counts the line feeds of a text and the carriage returns that stand alone,
if the text does not end between the two characters of one line break. -/
theorem Place.line_after (place : Place) (text : List Char) {rest : List Char}
    (hrest : '\n' ∉ rest.head?) :
    (place.after text).line = place.line + lineFeeds text + loneReturns text rest := by
  fun_induction Place.after place text with
  | case1 => rfl
  | case2 place text ih =>
      -- One break for two characters: it is counted with the line feed.
      rw [ih, loneReturns_return_lineFeed, lineFeeds_cons, if_neg (by decide), lineFeeds_cons,
        if_pos rfl]
      dsimp only
      omega
  | case3 place c text hpair hbreak ih =>
      rw [ih, lineFeeds_cons]
      dsimp only
      rcases hbreak with rfl | rfl
      · rw [if_pos rfl, loneReturns_cons_of_ne (by decide)]
        omega
      · have halone : '\n' ∉ (text ++ rest).head? := by
          cases text with
          | nil => exact hrest
          | cons x text => simpa using fun hx => hpair text rfl (by rw [hx])
        rw [if_neg (by decide), loneReturns_return halone]
        omega
  | case4 place c text hpair hbreak ih =>
      obtain ⟨hfeed, hreturn⟩ := not_or.1 hbreak
      rw [ih, loneReturns_cons_of_ne hreturn, lineFeeds_cons, if_neg hfeed, Nat.zero_add]

example : (Place.endOf "a\r\nb\rc\nde".toList).line = 2 + 1 := by decide

end Text

namespace Lexeme

theorem lineFeed_not_mem_head? {text : List Char} {reading : Reading} (h : Lexeme text reading)
    (hreading : reading ≠ .skipped) (rest : List Char) : '\n' ∉ (text ++ rest).head? := by
  cases text with
  | nil => exact absurd rfl h.ne_nil
  | cons c more =>
      intro hfeed
      obtain rfl : c = '\n' := by simpa using hfeed
      exact hreading (h.eq_skipped_of_blank (by decide))

end Lexeme

namespace Diagnostic

theorem cut_of_span {d : Diagnostic} {before text after : List Char}
    (hscript : d.script.toList = before ++ text ++ after)
    (hspan : d.fault.span = ⟨Text.byteLength before, Text.byteLength text⟩) :
    d.before = before ∧ d.text = text := by
  constructor
  · simp only [Diagnostic.before, hspan, hscript, List.append_assoc, Text.splitAtByte_byteLength]
  · simp only [Diagnostic.text, hspan, hscript, List.append_assoc, Text.splitAtByte_byteLength]

/-- The diagnostic shows its fault in the source, with `after` behind the faulty text. -/
structure PointsInto (d : Diagnostic) (name source : String) (after : List Char) : Prop where
  name : d.name = name
  script : d.script = source
  text : source.toList = d.before ++ d.text ++ after
  span : d.fault.span = ⟨Text.byteLength d.before, Text.byteLength d.text⟩
  /-- The label counts lines from zero, and one more at each carriage return that stands
  alone. -/
  line : d.place.line + 1 = d.fault.line + Text.loneReturns d.before (d.text ++ after)
  /-- The message and the label speak of the same line if and only if every carriage return
  before the fault has its line feed. -/
  agrees : d.fault.line = d.place.line + 1 ↔
    ∀ first last, d.before = first ++ '\r' :: last → '\n' ∈ (last ++ (d.text ++ after)).head?

end Diagnostic

namespace Scan

theorem map_fault_diagnostics (scan : Scan) (name script : String) :
    (scan.diagnostics name script).map Diagnostic.fault = scan.faults := by
  simp [diagnostics, Diagnostic.ofFaults, Function.comp_def]

theorem result_labelled (scan : Scan) (name script : String) :
    (scan.labelled name script).result = scan.labelledResult name script := by
  unfold LabelledScan.result labelledResult result hasFaults labelled diagnostics
  cases scan.faults <;> rfl

theorem exists_pointsInto {source : String} {d : Diagnostic} (hscript : d.script = source)
    (hfault : d.fault ∈ (scan source).faults) :
    ∃ after, d.PointsInto d.name source after := by
  obtain ⟨before, p, after, hsource, hcovers⟩ := exists_covers (mem_faults_iff.1 hfault)
  have hspan : d.fault.span = ⟨Text.byteLength before, Text.byteLength p.text⟩ := hcovers.span
  have hline : d.fault.line = 1 + Text.lineFeeds before := hcovers.line
  obtain ⟨hbefore, htext⟩ := Diagnostic.cut_of_span (hscript ▸ hsource) hspan
  have hreading : p.reading ≠ .skipped := by
    rw [← Piece.item?_isSome, hcovers.item?_eq]
    rfl
  have hhead := hcovers.lexeme.lineFeed_not_mem_head? hreading after
  have hplace : d.place.line + 1 =
      d.fault.line + Text.loneReturns d.before (d.text ++ after) := by
    rw [Diagnostic.place, Text.Place.endOf, hbefore, htext, Text.Place.line_after _ _ hhead, hline]
    dsimp only
    omega
  refine ⟨after, rfl, hscript, ?_, ?_, hplace, ?_⟩
  · rw [hbefore, htext, hsource]
  · rw [hbefore, htext, hspan]
  · rw [hplace, ← Text.loneReturns_eq_zero_iff]
    omega

/-- With the source attached, a scan has the same tokens and the same faults in the same
order, and each label points at the text of its fault. -/
theorem scan_labelled (source name : String) :
    ((scan source).labelled name source).tokens = (scan source).tokens ∧
      ((scan source).labelled name source).diagnostics.map Diagnostic.fault =
        (scan source).faults ∧
      ((scan source).labelled name source).result = (scan source).labelledResult name source ∧
      ∀ d ∈ ((scan source).labelled name source).diagnostics,
        ∃ after, d.PointsInto name source after := by
  refine ⟨rfl, map_fault_diagnostics .., result_labelled .., ?_⟩
  intro d hd
  obtain ⟨f, hf, rfl⟩ := List.mem_map.1 hd
  exact exists_pointsInto rfl hf

end Scan

end ScriptLexer
