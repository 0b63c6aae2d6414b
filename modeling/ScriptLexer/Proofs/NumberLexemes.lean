import ScriptLexer.Proofs.Closing
import ScriptLexer.Proofs.CorrectRounding
import Mathlib.Data.Nat.Digits.Defs

/-!
What a scan makes of numbers. Each turn of the loop adds the item of the lexeme that it
reads, and no other item of the scan has a byte in common with that lexeme; so what the
scan yields for it can be said by its place. For digits that is their value, exactly, or
one fault; for a decimal it is the floating-point number nearest to its value, or one
fault from where that number would be infinite.
-/

namespace ScriptLexer

def Span.meets (span other : Span) : Bool :=
  span.offset < other.stop && other.offset < span.stop

theorem Span.meets_iff {span other : Span} :
    span.meets other = true ↔ span.offset < other.stop ∧ other.offset < span.stop := by
  rw [meets, Bool.and_eq_true, decide_eq_true_iff, decide_eq_true_iff]

theorem Lexeme.ne_invalidNumber {text : List Char} {reading : Reading} (h : Lexeme text reading) :
    reading ≠ .fault .invalidNumber := by
  rintro rfl
  cases h

namespace Scan

/-! ### What a scan yields at a place -/

/-- Of the tokens and the faults of a scan, these and no others meet a stretch of the
script. -/
structure Yields (scan : Scan) (span : Span) (tokens : List Token) (faults : List Fault) :
    Prop where
  tokens : (scan.tokens.filter fun t => t.span.meets span) = tokens
  faults : (scan.faults.filter fun f => f.span.meets span) = faults

theorem Yields.of_items {scan : Scan} {span : Span} {items : List Item}
    (hitems : (scan.items.filter fun item => item.span.meets span) = items)
    (hend : scan.endToken.span.meets span = false) :
    Yields scan span (items.filterMap Item.token?) (items.filterMap Item.fault?) where
  tokens := by
    have htokens := filter_filterMap_span (fun _ _ => Item.span_of_token?)
      (fun s => s.meets span) scan.items
    rw [Scan.tokens, List.filter_append, properTokens, htokens, hitems,
      List.filter_cons_of_neg (by simp [hend]), List.filter_nil, List.append_nil]
  faults := by
    have hfaults := filter_filterMap_span (fun _ _ => Item.span_of_fault?)
      (fun s => s.meets span) scan.items
    rw [Scan.faults, hfaults, hitems]

theorem Between.filter_meets {done ahead : List Piece} {items : List Item} {c : Cursor}
    {p : Piece} (h : Between done (p :: ahead) items c) :
    ((ofText (textOf (done ++ p :: ahead))).items.filter fun item =>
        item.span.meets ⟨c.offset, Text.byteLength p.text⟩) =
      (p.item? c.offset c.line).toList := by
  have hpos := Text.byteLength_pos (h.isCut.lexeme (p := p) (by simp)).ne_nil
  have hbefore : ∀ item ∈ itemsAt 0 1 done,
      ¬ item.span.meets ⟨c.offset, Text.byteLength p.text⟩ = true := by
    intro item hitem
    have hstop := stop_le_of_mem_itemsAt hitem
    rw [Nat.zero_add, ← h.offset] at hstop
    rw [Span.meets_iff]
    show ¬ (item.span.offset < _ ∧ c.offset < item.span.stop)
    omega
  have hbehind : ∀ item ∈ itemsAt (c.offset + Text.byteLength p.text)
      (c.line + Text.lineFeeds p.text) ahead,
      ¬ item.span.meets ⟨c.offset, Text.byteLength p.text⟩ = true := by
    intro item hitem
    have hoffset := offset_le_of_mem_itemsAt hitem
    rw [Span.meets_iff]
    show ¬ (item.span.offset < c.offset + Text.byteLength p.text ∧ _)
    omega
  have hitself : ∀ item ∈ (p.item? c.offset c.line).toList,
      item.span.meets ⟨c.offset, Text.byteLength p.text⟩ = true := by
    intro item hitem
    rw [(Piece.item?_place (Option.mem_toList.1 hitem)).1, Span.meets_iff]
    show c.offset < c.offset + Text.byteLength p.text ∧
      c.offset < c.offset + Text.byteLength p.text
    omega
  rw [ofText_textOf h.isCut, itemsAt_append, Nat.zero_add, ← h.offset, ← h.line, itemsAt,
    List.filter_append, List.filter_append, List.filter_eq_nil_iff.2 hbefore,
    List.filter_eq_self.2 hitself, List.filter_eq_nil_iff.2 hbehind, List.append_nil,
    List.nil_append]

theorem Reached.yields {source : String} {items : List Item} {c after : Cursor}
    {reading : Reading} (h : Reached source.toList items c)
    (hread : Reading.next? c = some (reading, after)) :
    Yields (scan source) after.span ((reading.item? after).toList.filterMap Item.token?)
      ((reading.item? after).toList.filterMap Item.fault?) := by
  obtain ⟨done, ahead, htext, hbetween⟩ := h.exists_between
  cases ahead with
  | nil =>
      rw [Reading.next?_eq_none_iff.2 hbetween.rest] at hread
      contradiction
  | cons p ahead =>
      rw [hbetween.step.1] at hread
      obtain ⟨rfl, rfl⟩ := Prod.mk.inj (Option.some.inj hread)
      have hspan : (c.past p.text (textOf ahead)).span = ⟨c.offset, Text.byteLength p.text⟩ := rfl
      rw [hspan, item?_past]
      apply Yields.of_items
      · rw [scan, ← htext]
        exact hbetween.filter_meets
      · have hsize : c.offset + Text.byteLength p.text ≤ Text.byteLength source.toList := by
          rw [← htext, hbetween.offset]
          simp
        rw [scan, endToken_ofText]
        apply eq_false_of_ne_true
        rw [Span.meets_iff]
        show ¬ (Text.byteLength source.toList < c.offset + Text.byteLength p.text ∧ _)
        omega

/-! ### Numbers -/

theorem kind_ne_invalidNumber {source : String} {f : Fault} (hf : f ∈ (scan source).faults) :
    f.kind ≠ .invalidNumber := by
  obtain ⟨before, p, after, -, hcovers⟩ := exists_covers (mem_faults_iff.1 hf)
  have hne := hcovers.lexeme.ne_invalidNumber
  rw [Piece.reading_of_item?_eq_fault hcovers.item?_eq] at hne
  intro hkind
  exact hne (congrArg Reading.fault hkind)

end Scan

namespace Number

def decimalValue (digits : List Char) : Nat :=
  Nat.ofDigits 10 (digits.reverse.map fun digit => digit.toNat - '0'.toNat)

theorem valueOfDigits_eq (digits : List Char) : valueOfDigits digits = decimalValue digits := by
  induction digits using List.reverseRecOn with
  | nil => rfl
  | append_singleton digits digit ih =>
      have hone : valueOfDigits [digit] = digit.toNat - '0'.toNat := by
        rw [valueOfDigits, Nat.ofDigitChars_cons, Nat.ofDigitChars_nil, Nat.mul_zero, Nat.zero_add]
      rw [valueOfDigits_append, ih, hone, decimalValue, decimalValue, List.reverse_concat,
        List.map_cons, Nat.ofDigits_cons, Nat.mul_comm, Nat.add_comm]
      rfl

def valueOfDecimal (whole fraction : List Char) : ℚ :=
  decimalValue whole + decimalValue fraction / 10 ^ fraction.length

theorem valueOfDecimal_eq (whole fraction : List Char) :
    valueOfDecimal whole fraction =
      (valueOfDigits (whole ++ fraction) : ℚ) / (Nat.pow 10 fraction.length : ℕ) := by
  have hpow : (10 : ℚ) ^ fraction.length ≠ 0 := pow_ne_zero _ (by norm_num)
  rw [valueOfDigits_append, valueOfDigits_eq, valueOfDigits_eq, valueOfDecimal, Nat.pow_eq]
  push_cast
  field_simp

end Number

namespace Scan

open Number Lexeme

/-- All the digits that stand at the cursor, with no fraction behind them. -/
structure IsIntegerRun (c : Cursor) (digits rest : List Char) : Prop where
  begins : c.rest = digits ++ rest
  digits : Digits digits
  maximal : ∀ x ∈ rest.head?, x.isDigit = false
  no_fraction : ∀ x more, rest = '.' :: x :: more → x.isDigit = false

/-- Digits, however many and whatever zeros they begin with, stand for their exact value,
or, if that is too great for 64 bits, for one fault. No number is ever unreadable. -/
theorem integers_exact (source : String) :
    (∀ items c digits rest, Reached source.toList items c → IsIntegerRun c digits rest →
      let value := decimalValue digits
      let span : Span := ⟨c.offset, Text.byteLength digits⟩
      if value ≤ 2 ^ 63 - 1 then
        Yields (scan source) span
          [⟨.integerNumber, String.ofList digits, some (.integer value), c.line, span⟩] []
      else Yields (scan source) span [] [⟨.integerOverflow, c.line, span⟩]) ∧
    ∀ f ∈ (scan source).faults, f.kind ≠ .invalidNumber := by
  refine ⟨?_, fun f => kind_ne_invalidNumber⟩
  intro items c digits rest hreached hrun value span
  have hread := Reading.next?_integer hrun.digits hrun.begins hrun.maximal hrun.no_fraction
  rw [Reading.ofInteger_eq hrun.digits.1 hrun.digits.2, valueOfDigits_eq] at hread
  have hgreatest : 2 ^ 63 - 1 = Reading.greatestInteger := rfl
  rw [hgreatest]
  by_cases hvalue : value ≤ Reading.greatestInteger
  · rw [if_pos hvalue] at hread ⊢
    exact hreached.yields hread
  · rw [if_neg hvalue] at hread ⊢
    exact hreached.yields hread

/-- The greatest integer behind zeros, in front of a point that begins no fraction, and the
integer that follows it. -/
theorem integers_exact_limit :
    let source := "0009223372036854775807.x"
    let greater := "9223372036854775808"
    Reached source.toList [] (.ofText source.toList) ∧
      IsIntegerRun (.ofText source.toList) "0009223372036854775807".toList ['.', 'x'] ∧
      Yields (scan source) ⟨0, 22⟩
        [⟨.integerNumber, "0009223372036854775807", some (.integer 9223372036854775807), 1,
          ⟨0, 22⟩⟩] [] ∧
      Reached greater.toList [] (.ofText greater.toList) ∧
      IsIntegerRun (.ofText greater.toList) greater.toList [] ∧
      Yields (scan greater) ⟨0, 19⟩ [] [⟨.integerOverflow, 1, ⟨0, 19⟩⟩] := by
  intro source greater
  have hrun : IsIntegerRun (.ofText source.toList) "0009223372036854775807".toList ['.', 'x'] := by
    refine ⟨by decide +kernel, ⟨by decide, ?_⟩, by simp, by simp⟩
    exact List.all_eq_true.1 (by decide)
  have hgreater : IsIntegerRun (.ofText greater.toList) greater.toList [] := by
    refine ⟨(List.append_nil _).symm, ⟨by decide, ?_⟩, by simp, by simp⟩
    exact List.all_eq_true.1 (by decide)
  have hvalue : decimalValue "0009223372036854775807".toList = 9223372036854775807 := by
    decide +kernel
  have hgreat : ¬ decimalValue greater.toList ≤ 2 ^ 63 - 1 := by decide +kernel
  have hsize : Text.byteLength greater.toList = 19 := by decide +kernel
  have hfits := (integers_exact source).1 _ _ _ _ .start hrun
  have hexceeds := (integers_exact greater).1 _ _ _ _ .start hgreater
  dsimp only at hfits hexceeds
  rw [hvalue, if_pos (by decide)] at hfits
  rw [if_neg hgreat, hsize] at hexceeds
  exact ⟨.start, hrun, hfits, .start, hgreater, hexceeds⟩

/-- A decimal stands for the floating-point number nearest to its value, or, if that value
rounds to infinity, for one fault. No number is ever unreadable. -/
theorem decimals_rounded (source : String) :
    (∀ items c reading after whole fraction, Reached source.toList items c →
      Reading.next? c = some (reading, after) → after.lexeme = whole ++ '.' :: fraction →
      Digits whole → Digits fraction →
      let value := valueOfDecimal whole fraction
      if value < 2 ^ 1024 - 2 ^ 970 then
        ∃ x, Binary64.IsNearest value x ∧ (∀ y, Binary64.IsNearest value y → y = x) ∧
          Yields (scan source) after.span
            [⟨.number, String.ofList after.lexeme, some (.float x), c.line, after.span⟩] []
      else Yields (scan source) after.span [] [⟨.floatOverflow, c.line, after.span⟩]) ∧
    ∀ f ∈ (scan source).faults, f.kind ≠ .invalidNumber := by
  refine ⟨?_, fun f => kind_ne_invalidNumber⟩
  intro items c reading after whole fraction hreached hread hlexeme hwhole hfraction value
  obtain ⟨text, rest, htext, -, -, rfl⟩ := Reading.next?_eq_some_iff.1 hread
  obtain rfl : text = whole ++ '.' :: fraction := hlexeme
  obtain rfl := (ofDecimal hwhole hfraction).unique htext
  have hden : 0 < Nat.pow 10 fraction.length := Nat.pow_pos (by decide)
  have hvalue : value = _ := valueOfDecimal_eq whole fraction
  rw [Reading.ofDecimal_eq hwhole.1 hwhole.2 hfraction.2] at hread
  rw [hvalue]
  cases hquotient : Binary64.ofQuotient? (valueOfDigits (whole ++ fraction))
      (Nat.pow 10 fraction.length) with
  | none =>
      have hgreat := (Binary64.ofQuotient?_eq_none_iff hden).1 hquotient
      rw [hquotient] at hread
      rw [if_neg (not_lt_of_ge hgreat)]
      exact hreached.yields hread
  | some x =>
      have hsmall := mt (Binary64.ofQuotient?_eq_none_iff hden).2
        (hquotient ▸ Option.some_ne_none x)
      have hnearest := Binary64.isNearest_of_ofQuotient? hden hquotient
      rw [hquotient] at hread
      rw [if_pos (lt_of_not_ge hsmall)]
      exact ⟨x, hnearest, fun y hy => hy.unique hnearest, hreached.yields hread⟩

/-- Half between two floating-point numbers. -/
theorem decimals_rounded_half :
    let source := "9007199254740993.0"
    let after : Cursor := ⟨0, source.toList, [], 1, 1⟩
    let half : Number.Binary64 := ⟨0x4340000000000000⟩
    Reached source.toList [] (.ofText source.toList) ∧
      Reading.next? (.ofText source.toList) = some (.token .number (some (.float half)), after) ∧
      after.lexeme = "9007199254740993".toList ++ '.' :: ['0'] ∧
      Digits "9007199254740993".toList ∧ Digits ['0'] ∧
      ∃ x, Binary64.IsNearest (valueOfDecimal "9007199254740993".toList ['0']) x ∧
        (∀ y, Binary64.IsNearest (valueOfDecimal "9007199254740993".toList ['0']) y → y = x) ∧
          Yields (scan source) after.span
            [⟨.number, String.ofList after.lexeme, some (.float x), 1, after.span⟩] [] := by
  intro source after half
  have hread : Reading.next? (.ofText source.toList) =
      some (.token .number (some (.float half)), after) := by
    decide +kernel
  have hlexeme : after.lexeme = "9007199254740993".toList ++ '.' :: ['0'] := by decide +kernel
  have hwhole : Digits "9007199254740993".toList :=
    ⟨by decide, List.all_eq_true.1 (by decide)⟩
  have hfraction : Digits ['0'] := ⟨by decide, List.all_eq_true.1 (by decide)⟩
  have hvalue : valueOfDecimal "9007199254740993".toList ['0'] < 2 ^ 1024 - 2 ^ 970 := by
    have hdigits : decimalValue "9007199254740993".toList = 9007199254740993 := by decide +kernel
    have hzero : decimalValue ['0'] = 0 := by decide +kernel
    have hpow : (1 : ℚ) ≤ 2 ^ 970 := one_le_pow₀ one_le_two
    calc valueOfDecimal "9007199254740993".toList ['0']
        < (2 ^ 54 - 1 : ℕ) := by rw [valueOfDecimal, hdigits, hzero]; norm_num
      _ ≤ (2 ^ 54 - 1 : ℕ) * 2 ^ 970 := le_mul_of_one_le_right (Nat.cast_nonneg _) hpow
      _ = 2 ^ 1024 - 2 ^ 970 := Binary64.threshold_eq 970
  have h := (decimals_rounded source).1 _ _ _ _ _ _ .start hread hlexeme hwhole hfraction
  dsimp only at h
  rw [if_pos hvalue] at h
  exact ⟨.start, hread, hlexeme, hwhole, hfraction, h⟩

end Scan

end ScriptLexer
