import ScriptLexer.Reading

/-!
What the digits of a number literal are read as. Both readings can fail in more ways than
one, and on digits each fails in one way at most. An integer is exact as long as every step
of its reading fits, and since more digits never make it smaller, a step that does not fit
means that the whole does not. A decimal has a value whatever its digits are, which is
infinite if it rounds to infinity.
-/

namespace ScriptLexer

namespace Number

namespace Integer64

theorem greatestInteger_eq : Reading.greatestInteger = 9223372036854775807 := rfl

theorem toInt_ofNat {n : Nat} (hn : n ≤ Reading.greatestInteger) :
    (Int64.ofNat n).toInt = n := by
  rw [greatestInteger_eq] at hn
  exact Int64.toInt_ofNat_of_lt (by omega)

theorem ofInt?_natCast (n : Nat) :
    ofInt? n = if n ≤ Reading.greatestInteger then some (Int64.ofNat n) else none := by
  have hword : Int64.ofInt n = Int64.ofNat n := rfl
  unfold ofInt?
  dsimp only
  rw [hword]
  by_cases hn : n ≤ Reading.greatestInteger
  · rw [if_pos hn, if_pos (toInt_ofNat hn)]
  · have hlt := (Int64.ofNat n).toInt_lt
    rw [if_neg hn, if_neg]
    rw [greatestInteger_eq] at hn
    omega

section

variable {a b : Nat} (ha : a ≤ Reading.greatestInteger) (hb : b ≤ Reading.greatestInteger)

include ha hb

theorem mul?_ofNat : mul? (Int64.ofNat a) (Int64.ofNat b) = ofInt? (a * b : Nat) := by
  rw [mul?, toInt_ofNat ha, toInt_ofNat hb, Int.natCast_mul]

theorem add?_ofNat : add? (Int64.ofNat a) (Int64.ofNat b) = ofInt? (a + b : Nat) := by
  rw [add?, toInt_ofNat ha, toInt_ofNat hb, Int.natCast_add]

end

theorem sub_zero_le_nine {digit : Char} (h : digit.isDigit = true) :
    digit.toNat - '0'.toNat ≤ 9 := by
  have hupper := of_decide_eq_true (Bool.and_eq_true_iff.1 h).2
  have hle : digit.toNat ≤ 57 := UInt32.le_iff_toNat_le.1 hupper
  have hzero : '0'.toNat = 48 := rfl
  omega

/-- One more digit makes an integer ten times as great and adds itself, if the result
fits; else the product is refused, or the sum. -/
theorem push?_ofNat {n : Nat} (hn : n ≤ Reading.greatestInteger) {digit : Char}
    (hdigit : digit.isDigit = true) :
    push? (Int64.ofNat n) digit = ofInt? (10 * n + (digit.toNat - '0'.toNat) : Nat) := by
  have hsmall := sub_zero_le_nine hdigit
  unfold push?
  generalize digit.toNat - '0'.toNat = d at hsmall ⊢
  have hd : d ≤ Reading.greatestInteger := Nat.le_trans hsmall (by decide)
  have hmul := mul?_ofNat hn (b := 10) (by decide)
  rw [Nat.mul_comm] at hmul
  show (mul? (Int64.ofNat n) (Int64.ofNat 10)).bind _ = _
  rw [hmul, ofInt?_natCast]
  by_cases htens : 10 * n ≤ Reading.greatestInteger
  · rw [if_pos htens]
    exact add?_ofNat htens hd
  · rw [if_neg htens, ofInt?_natCast, if_neg (by omega)]
    rfl

theorem le_ofDigitChars (digits : List Char) (n : Nat) : n ≤ Nat.ofDigitChars 10 digits n := by
  induction digits generalizing n with
  | nil => exact Nat.le_refl n
  | cons c digits ih =>
      rw [Nat.ofDigitChars_cons]
      have := ih (10 * n + (c.toNat - '0'.toNat))
      omega

theorem readDigits_ofNat {digits : List Char} (hdigits : ∀ c ∈ digits, c.isDigit = true) {n : Nat}
    (hn : n ≤ Reading.greatestInteger) :
    readDigits (Int64.ofNat n) digits =
      if Nat.ofDigitChars 10 digits n ≤ Reading.greatestInteger then
        .ok (Int64.ofNat (Nat.ofDigitChars 10 digits n))
      else .error .overflow := by
  induction digits generalizing n with
  | nil => rw [readDigits, Nat.ofDigitChars_nil, if_pos hn]
  | cons c digits ih =>
      obtain ⟨hc, hdigits⟩ := List.forall_mem_cons.1 hdigits
      rw [readDigits, if_pos hc, push?_ofNat hn hc, ofInt?_natCast, Nat.ofDigitChars_cons]
      generalize 10 * n + (c.toNat - '0'.toNat) = next
      by_cases hnext : next ≤ Reading.greatestInteger
      · rw [if_pos hnext]
        exact ih hdigits hnext
      · -- The digits that follow do not make it smaller again.
        have hle := le_ofDigitChars digits next
        rw [if_neg hnext, if_neg (by omega)]

theorem ofText_eq {digits : List Char} (hne : digits ≠ [])
    (hdigits : ∀ c ∈ digits, c.isDigit = true) :
    ofText digits =
      if valueOfDigits digits ≤ Reading.greatestInteger then
        .ok (Int64.ofNat (valueOfDigits digits))
      else .error .overflow := by
  have hempty : ¬ digits.isEmpty = true := by rwa [List.isEmpty_iff]
  rw [ofText, if_neg hempty]
  exact readDigits_ofNat hdigits (Nat.zero_le _)

end Integer64

namespace Binary64

theorem magnitude_ofNat {pattern : Nat} (h : pattern < infinityBits) :
    (⟨UInt64.ofNat pattern⟩ : Binary64).magnitude = pattern ∧
      (⟨UInt64.ofNat pattern⟩ : Binary64).isNegative = false := by
  have hsmall : pattern < Nat.pow 2 63 := Nat.lt_trans h (by decide)
  have hbits : (UInt64.ofNat pattern).toNat = pattern :=
    UInt64.toNat_ofNat_of_lt' (Nat.lt_trans hsmall (by decide))
  unfold magnitude isNegative
  rw [hbits]
  exact ⟨Nat.mod_eq_of_lt hsmall, decide_eq_false (Nat.not_le_of_lt hsmall)⟩

theorem magnitude_of_ofQuotient? {num den : Nat} {value : Binary64}
    (h : ofQuotient? num den = some value) :
    nearestBits num den < infinityBits ∧ value.magnitude = nearestBits num den ∧
      value.isNegative = false := by
  unfold ofQuotient? at h
  dsimp only at h
  split at h
  · next hpattern =>
    obtain rfl := Option.some.inj h
    exact ⟨hpattern, magnitude_ofNat hpattern⟩
  · contradiction

theorem isFinite_of_ofQuotient? {num den : Nat} {value : Binary64}
    (h : ofQuotient? num den = some value) : value.isFinite = true := by
  obtain ⟨hpattern, hmagnitude, _⟩ := magnitude_of_ofQuotient? h
  exact decide_eq_true (hmagnitude ▸ hpattern)

theorem isFinite_infinity : infinity.isFinite = false := by
  decide +kernel

/-- A decimal is read as the number nearest to it, which may be infinite. -/
theorem ofText?_eq {whole fraction : List Char} (hne : whole ≠ [])
    (hwhole : ∀ c ∈ whole, c.isDigit = true) (hfraction : ∀ c ∈ fraction, c.isDigit = true) :
    ofText? (whole ++ '.' :: fraction) =
      some ((ofQuotient? (valueOfDigits (whole ++ fraction)) (Nat.pow 10 fraction.length)).getD
        infinity) := by
  have hpoint : ∀ x ∈ ('.' :: fraction).head?, x.isDigit = false := by
    rintro x ⟨⟩
    rfl
  have hall : fraction.all Char.isDigit = true := List.all_eq_true.2 hfraction
  have hempty : ¬ (whole.isEmpty && fraction.isEmpty) = true := by
    simp [hne]
  unfold ofText?
  rw [Text.takeWhile_append hwhole hpoint, Text.dropWhile_append hwhole hpoint]
  simp only [fraction?, hall, decide_true, Bool.and_self, if_true]
  exact if_neg hempty

end Binary64

end Number

namespace Reading

open Number

variable {whole fraction : List Char} (hne : whole ≠ [])
  (hwhole : ∀ c ∈ whole, c.isDigit = true) (hfraction : ∀ c ∈ fraction, c.isDigit = true)

include hne hwhole

theorem ofInteger_eq :
    ofInteger whole =
      if valueOfDigits whole ≤ greatestInteger then
        .token .integerNumber (some (.integer (valueOfDigits whole)))
      else .fault .integerOverflow := by
  unfold ofInteger
  rw [Integer64.ofText_eq hne hwhole]
  by_cases hvalue : valueOfDigits whole ≤ greatestInteger
  · rw [if_pos hvalue, if_pos hvalue]
    dsimp only
    rw [Integer64.toInt_ofNat hvalue]
  · rw [if_neg hvalue, if_neg hvalue]

include hfraction

theorem ofDecimal_eq :
    ofDecimal whole fraction =
      match Binary64.ofQuotient? (valueOfDigits (whole ++ fraction))
        (Nat.pow 10 fraction.length) with
      | some value => .token .number (some (.float value))
      | none => .fault .floatOverflow := by
  unfold ofDecimal
  rw [Binary64.ofText?_eq hne hwhole hfraction]
  cases hvalue : Binary64.ofQuotient? (valueOfDigits (whole ++ fraction))
      (Nat.pow 10 fraction.length) with
  | none =>
      rw [Option.getD_none]
      dsimp only
      rw [Binary64.isFinite_infinity, if_neg Bool.false_ne_true]
  | some value =>
      rw [Option.getD_some]
      dsimp only
      rw [Binary64.isFinite_of_ofQuotient? hvalue, if_pos rfl]

end Reading

end ScriptLexer
