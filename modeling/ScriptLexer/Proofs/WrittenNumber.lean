import ScriptLexer.Number.Style
import ScriptLexer.Proofs.NearestNumber
import ScriptLexer.Text.Split

/-!
Numbers as they are written: a sign, digits, a fraction and an exponent, as the grammar
of RFC 8259 has them. A text is a number in one way at most, and it says which integer
it is, or which floating-point number is nearest. The numerals of integers read back to
the integers, and in any style a finite floating-point number reads back to its bits: the
digits are those of its shortest decimal, and where the point stands among them is made
up for by the exponent.
-/

namespace ScriptLexer.Number

def Binary64.withSign (negative : Bool) (x : Binary64) : Binary64 :=
  ⟨UInt64.ofNat (x.magnitude + if negative then Nat.pow 2 63 else 0)⟩

structure ExponentPart where
  mark : Char
  sign : List Char
  digits : List Char
  deriving DecidableEq

namespace ExponentPart

structure WellFormed (e : ExponentPart) : Prop where
  mark : e.mark = 'e' ∨ e.mark = 'E'
  sign : e.sign = [] ∨ e.sign = ['+'] ∨ e.sign = ['-']
  ne_nil : e.digits ≠ []
  digits : ∀ c ∈ e.digits, c.isDigit = true

instance (e : ExponentPart) : Decidable e.WellFormed :=
  decidable_of_iff
    ((e.mark = 'e' ∨ e.mark = 'E') ∧ (e.sign = [] ∨ e.sign = ['+'] ∨ e.sign = ['-']) ∧
      e.digits ≠ [] ∧ e.digits.all Char.isDigit = true)
    ⟨fun ⟨mark, sign, ne_nil, digits⟩ => ⟨mark, sign, ne_nil, List.all_eq_true.1 digits⟩,
      fun ⟨mark, sign, ne_nil, digits⟩ => ⟨mark, sign, ne_nil, List.all_eq_true.2 digits⟩⟩

def text (e : ExponentPart) : List Char := e.mark :: (e.sign ++ e.digits)

def value (e : ExponentPart) : Int :=
  if e.sign = ['-'] then -valueOfDigits e.digits else valueOfDigits e.digits

end ExponentPart

/-- The parts of a number. Where there is no fraction, there is no point either. -/
structure Written where
  negative : Bool
  whole : List Char
  fraction : List Char
  exponent : Option ExponentPart
  deriving DecidableEq

namespace Written

/-- No digits are missing, and no zero stands before others. -/
structure WellFormed (w : Written) : Prop where
  ne_nil : w.whole ≠ []
  whole : ∀ c ∈ w.whole, c.isDigit = true
  leading : w.whole.head? = some '0' → w.whole = ['0']
  fraction : ∀ c ∈ w.fraction, c.isDigit = true
  exponent : ∀ e ∈ w.exponent.toList, e.WellFormed

instance (w : Written) : Decidable w.WellFormed :=
  decidable_of_iff
    (w.whole ≠ [] ∧ w.whole.all Char.isDigit = true ∧
      (w.whole.head? = some '0' → w.whole = ['0']) ∧ w.fraction.all Char.isDigit = true ∧
      w.exponent.toList.all (fun e => decide e.WellFormed) = true)
    ⟨fun ⟨ne_nil, whole, leading, fraction, exponent⟩ =>
        ⟨ne_nil, List.all_eq_true.1 whole, leading, List.all_eq_true.1 fraction,
          fun e he => of_decide_eq_true (List.all_eq_true.1 exponent e he)⟩,
      fun ⟨ne_nil, whole, leading, fraction, exponent⟩ =>
        ⟨ne_nil, List.all_eq_true.2 whole, leading, List.all_eq_true.2 fraction,
          List.all_eq_true.2 fun e he => decide_eq_true (exponent e he)⟩⟩

def fractionText : List Char → List Char
  | [] => []
  | fraction => '.' :: fraction

def exponentText : Option ExponentPart → List Char
  | none => []
  | some e => e.text

def text (w : Written) : List Char :=
  (if w.negative then ['-'] else []) ++
    (w.whole ++ (fractionText w.fraction ++ exponentText w.exponent))

theorem text_ne_nil {w : Written} (h : w.WellFormed) : w.text ≠ [] := by
  simp [text, h.ne_nil]

def marks : List Char := ['-', '+', '.', 'e', 'E']

theorem mem_fractionText {fraction : List Char} (h : ∀ c ∈ fraction, c.isDigit = true) {c : Char}
    (hc : c ∈ fractionText fraction) : c.isDigit = true ∨ c ∈ marks := by
  cases fraction with
  | nil => exact absurd hc List.not_mem_nil
  | cons first more =>
      rcases List.mem_cons.1 hc with rfl | hc
      · exact .inr (by decide)
      · exact .inl (h c hc)

theorem mem_exponentText {exponent : Option ExponentPart}
    (h : ∀ e ∈ exponent.toList, e.WellFormed) {c : Char} (hc : c ∈ exponentText exponent) :
    c.isDigit = true ∨ c ∈ marks := by
  cases exponent with
  | none => exact absurd hc List.not_mem_nil
  | some e =>
      have he := h e (List.mem_singleton_self e)
      rcases List.mem_cons.1 hc with rfl | hc
      · right
        rcases he.mark with hmark | hmark <;> rw [hmark] <;> decide
      rcases List.mem_append.1 hc with hc | hc
      · right
        rcases he.sign with hsign | hsign | hsign <;> rw [hsign] at hc
        · contradiction
        · rw [List.mem_singleton.1 hc]
          decide
        · rw [List.mem_singleton.1 hc]
          decide
      · exact .inl (he.digits c hc)

theorem mem_text {w : Written} (h : w.WellFormed) {c : Char} (hc : c ∈ w.text) :
    c.isDigit = true ∨ c ∈ marks := by
  rcases List.mem_append.1 hc with hc | hc
  · split at hc
    · rw [List.mem_singleton.1 hc]
      exact .inr (by decide)
    · contradiction
  rcases List.mem_append.1 hc with hc | hc
  · exact .inl (h.whole c hc)
  rcases List.mem_append.1 hc with hc | hc
  · exact mem_fractionText h.fraction hc
  · exact mem_exponentText h.exponent hc

/-! ### Reading -/

def splitFraction : List Char → List Char × List Char
  | '.' :: rest => (rest.takeWhile Char.isDigit, rest.dropWhile Char.isDigit)
  | rest => ([], rest)

def splitExponent : List Char → Option ExponentPart
  | [] => none
  | mark :: rest =>
    some ⟨mark, rest.takeWhile fun c => !c.isDigit, rest.dropWhile fun c => !c.isDigit⟩

def ofUnsigned (negative : Bool) (text : List Char) : Written :=
  let (fraction, rest) := splitFraction (text.dropWhile Char.isDigit)
  ⟨negative, text.takeWhile Char.isDigit, fraction, splitExponent rest⟩

def ofText : List Char → Written
  | '-' :: text => ofUnsigned true text
  | text => ofUnsigned false text

def ofText? (text : List Char) : Option Written :=
  let w := ofText text
  if w.WellFormed ∧ w.text = text then some w else none

theorem head?_exponentText {exponent : Option ExponentPart}
    (h : ∀ e ∈ exponent.toList, e.WellFormed) :
    ∀ c ∈ (exponentText exponent).head?, c.isDigit = false ∧ c ≠ '.' := by
  intro c hc
  cases exponent with
  | none => contradiction
  | some e =>
      obtain rfl : e.mark = c := Option.some.inj hc
      rcases (h e List.mem_cons_self).mark with hmark | hmark <;> rw [hmark] <;> decide

theorem splitExponent_exponentText {exponent : Option ExponentPart}
    (h : ∀ e ∈ exponent.toList, e.WellFormed) :
    splitExponent (exponentText exponent) = exponent := by
  cases exponent with
  | none => rfl
  | some e =>
      have he := h e List.mem_cons_self
      -- The sign ends where the digits begin, and may be empty.
      have hsign : ∀ c ∈ e.sign, (!c.isDigit) = true := by
        refine List.all_eq_true.1 ?_
        rcases he.sign with hsign | hsign | hsign <;> rw [hsign] <;> rfl
      have hdigits : ∀ c ∈ e.digits.head?, (!c.isDigit) = false := by
        intro c hc
        rw [he.digits c (List.mem_of_mem_head? hc)]
        rfl
      show splitExponent (e.mark :: (e.sign ++ e.digits)) = some e
      rw [splitExponent, Text.takeWhile_append hsign hdigits, Text.dropWhile_append hsign hdigits]

theorem splitFraction_fractionText {fraction rest : List Char}
    (hfraction : ∀ c ∈ fraction, c.isDigit = true)
    (hrest : ∀ c ∈ rest.head?, c.isDigit = false ∧ c ≠ '.') :
    splitFraction (fractionText fraction ++ rest) = (fraction, rest) := by
  have hend : ∀ c ∈ rest.head?, c.isDigit = false := fun c hc => (hrest c hc).1
  cases fraction with
  | nil =>
      rw [fractionText, List.nil_append, splitFraction]
      rintro more rfl
      exact (hrest '.' rfl).2 rfl
  | cons c fraction =>
      show ((c :: fraction ++ rest).takeWhile Char.isDigit,
        (c :: fraction ++ rest).dropWhile Char.isDigit) = (c :: fraction, rest)
      rw [Text.takeWhile_append hfraction hend, Text.dropWhile_append hfraction hend]

theorem head?_fractionText (fraction : List Char) {rest : List Char}
    (hrest : ∀ c ∈ rest.head?, c.isDigit = false ∧ c ≠ '.') :
    ∀ c ∈ (fractionText fraction ++ rest).head?, c.isDigit = false := by
  intro c hc
  cases fraction with
  | nil => exact (hrest c hc).1
  | cons =>
      obtain rfl : '.' = c := Option.some.inj hc
      decide

theorem ofUnsigned_text (negative : Bool) {w : Written} (h : w.WellFormed) :
    ofUnsigned negative (w.whole ++ (fractionText w.fraction ++ exponentText w.exponent)) =
      { w with negative } := by
  have hexponent := head?_exponentText h.exponent
  have hfraction := head?_fractionText w.fraction hexponent
  unfold ofUnsigned
  rw [Text.takeWhile_append h.whole hfraction, Text.dropWhile_append h.whole hfraction,
    splitFraction_fractionText h.fraction hexponent]
  dsimp only
  rw [splitExponent_exponentText h.exponent]

theorem ofText_text {w : Written} (h : w.WellFormed) : ofText w.text = w := by
  cases hnegative : w.negative with
  | true =>
      have htext : w.text =
          '-' :: (w.whole ++ (fractionText w.fraction ++ exponentText w.exponent)) := by
        rw [text, hnegative]
        rfl
      rw [htext, ofText, ofUnsigned_text true h, ← hnegative]
  | false =>
      have htext : w.text = w.whole ++ (fractionText w.fraction ++ exponentText w.exponent) := by
        rw [text, hnegative]
        rfl
      rw [htext, ofText, ofUnsigned_text false h, ← hnegative]
      -- Without a sign the text begins with a digit, not with a minus.
      intro more hmore
      obtain ⟨first, others, hwhole⟩ := List.exists_cons_of_ne_nil h.ne_nil
      rw [hwhole, List.cons_append] at hmore
      have hfirst := h.whole first (by rw [hwhole]; exact List.mem_cons_self)
      rw [(List.cons.inj hmore).1] at hfirst
      contradiction

theorem ofText?_eq_some_iff {text : List Char} {w : Written} :
    ofText? text = some w ↔ w.WellFormed ∧ w.text = text := by
  unfold ofText?
  dsimp only
  constructor
  · intro h
    split at h
    · next hw => exact Option.some.inj h ▸ hw
    · contradiction
  · rintro ⟨h, rfl⟩
    rw [ofText_text h, if_pos ⟨h, rfl⟩]

example : (ofText? ['-', '0', '.', '5', 'e', '+', '1']).isSome = true ∧
    ofText? ['0', '1'] = none ∧ ofText? ['1', '.'] = none ∧ ofText? ['1', 'e'] = none := by
  decide

/-! ### What a number stands for -/

def isInteger (w : Written) : Bool :=
  w.fraction.isEmpty && w.exponent.isNone

def integer (w : Written) : Int :=
  if w.negative then -valueOfDigits w.whole else valueOfDigits w.whole

def exponentValue (w : Written) : Int :=
  match w.exponent with
  | none => 0
  | some e => e.value

def decimal (w : Written) : Decimal :=
  ⟨valueOfDigits (w.whole ++ w.fraction), w.exponentValue - w.fraction.length⟩

def float? (w : Written) : Option Binary64 :=
  w.decimal.nearest?.map (.withSign w.negative)

end Written

/-! ### Integers -/

theorem digitsOf_eq_zero {n : Nat} (h : (digitsOf n).head? = some '0') : digitsOf n = ['0'] := by
  induction n using Nat.strong_induction_on with
  | _ n ih =>
    have hsplit : digitsOf n = _ := Nat.toDigits_eq_if (by decide)
    rw [hsplit] at h ⊢
    split at h
    · next hsmall =>
      rw [if_pos hsmall, Option.some.inj h]
    · next hlarge =>
      -- The numeral begins with that of `n / 10`, which is not zero.
      obtain ⟨first, more, hhigh⟩ := List.exists_cons_of_ne_nil (digitsOf_ne_nil (n / 10))
      change (digitsOf (n / 10) ++ _).head? = some '0' at h
      rw [hhigh] at h
      have hfirst : (digitsOf (n / 10)).head? = some '0' := by
        rw [hhigh, ← Option.some.inj h]
        rfl
      have hvalue := valueOfDigits_digitsOf (n / 10)
      rw [ih (n / 10) (by omega) hfirst] at hvalue
      have hzero : valueOfDigits ['0'] = 0 := by decide
      omega

theorem wellFormed_digitsOf (negative : Bool) (n : Nat) :
    Written.WellFormed ⟨negative, digitsOf n, [], none⟩ where
  ne_nil := digitsOf_ne_nil n
  whole := isDigit_of_mem_digitsOf
  leading := digitsOf_eq_zero
  fraction := by simp
  exponent := by simp

theorem ofText?_numeralOf (i : Int) :
    ∃ w, Written.ofText? (numeralOf i) = some w ∧ w.isInteger = true ∧ w.integer = i := by
  cases i with
  | ofNat n =>
      refine ⟨⟨false, digitsOf n, [], none⟩, ?_, rfl, ?_⟩
      · refine Written.ofText?_eq_some_iff.2 ⟨wellFormed_digitsOf false n, ?_⟩
        simp [Written.text, Written.fractionText, Written.exponentText, numeralOf]
      · simp [Written.integer, valueOfDigits_digitsOf]
  | negSucc n =>
      refine ⟨⟨true, digitsOf (n + 1), [], none⟩, ?_, rfl, ?_⟩
      · refine Written.ofText?_eq_some_iff.2 ⟨wellFormed_digitsOf true (n + 1), ?_⟩
        simp [Written.text, Written.fractionText, Written.exponentText, numeralOf]
      · simp [Written.integer, valueOfDigits_digitsOf, Int.negSucc_eq]

/-! ### Floating-point numbers -/

theorem Binary64.withSign_magnitude (x : Binary64) :
    withSign x.isNegative ⟨UInt64.ofNat x.magnitude⟩ = x := by
  have hbits := UInt64.toNat_lt x.bits
  have hmagnitude : magnitude ⟨UInt64.ofNat x.magnitude⟩ = x.magnitude := by
    show (UInt64.ofNat x.magnitude).toNat % Nat.pow 2 63 = x.magnitude
    rw [UInt64.toNat_ofNat_of_lt' x.magnitude_lt]
    exact Nat.mod_mod ..
  have hsum : x.magnitude + (if x.isNegative then Nat.pow 2 63 else 0) = x.bits.toNat := by
    unfold magnitude isNegative
    simp only [decide_eq_true_eq, Nat.pow_eq]
    split <;> omega
  unfold withSign
  rw [hmagnitude, hsum, UInt64.ofNat_toNat]

/-- `w` is written as `text`, is no integer, and stands for `d`, though its digits may have
more zeros at the end. -/
structure Written.Spells (w : Written) (text : List Char) (d : Decimal) : Prop where
  wellFormed : w.WellFormed
  unsigned : w.negative = false
  text : w.text = text
  not_integer : w.isInteger = false
  zeros : ∃ zeros : Nat,
    valueOfDigits (w.whole ++ w.fraction) = d.significand * Nat.pow 10 zeros ∧
      w.exponentValue - w.fraction.length = d.exponent - zeros

theorem Written.Spells.nearest? {w : Written} {text : List Char} {d : Decimal}
    (h : w.Spells text d) : w.decimal.nearest? = d.nearest? := by
  obtain ⟨zeros, hsignificand, hexponent⟩ := h.zeros
  rw [Written.decimal, hsignificand, hexponent, Decimal.nearest?_mul_pow, Int.sub_add_cancel]

theorem digitsOf_leading {n : Nat} (hn : 0 < n) : (digitsOf n).head? ≠ some '0' := by
  intro h
  have hvalue := valueOfDigits_digitsOf n
  rw [digitsOf_eq_zero h] at hvalue
  have hzero : valueOfDigits ['0'] = 0 := by decide
  omega

theorem valueOfDigits_append_zeros (digits : List Char) (zeros : Nat) :
    valueOfDigits (digits ++ List.replicate zeros '0') =
      valueOfDigits digits * Nat.pow 10 zeros := by
  have hzeros := valueOfDigits_replicate_zero zeros []
  rw [List.append_nil, valueOfDigits_nil] at hzeros
  rw [valueOfDigits_append, hzeros, List.length_replicate, Nat.add_zero]

theorem spells_positional_fraction (n e : Nat) :
    Written.Spells ⟨false, ['0'], List.replicate e '0' ++ digitsOf n, none⟩
      (Style.positional (digitsOf n) (.negSucc e)) ⟨n, .negSucc e - (digitsOf n).length + 1⟩ where
  wellFormed := by
    refine ⟨by simp, by simp, fun _ => rfl, ?_, by simp⟩
    intro c hc
    rcases List.mem_append.1 hc with hc | hc
    · rw [List.eq_of_mem_replicate hc]
      rfl
    · exact isDigit_of_mem_digitsOf c hc
  unsigned := rfl
  text := by
    obtain ⟨first, more, hfraction⟩ :=
      List.exists_cons_of_ne_nil (l := List.replicate e '0' ++ digitsOf n)
        (by simp [digitsOf_ne_nil])
    show _ = '0' :: '.' :: List.replicate e '0' ++ digitsOf n
    rw [List.cons_append, List.cons_append, hfraction]
    simp [Written.text, Written.fractionText, Written.exponentText]
  not_integer := by simp [Written.isInteger, digitsOf_ne_nil]
  zeros := by
    refine ⟨0, ?_, ?_⟩
    · show valueOfDigits (List.replicate (e + 1) '0' ++ digitsOf n) = _
      rw [valueOfDigits_replicate_zero, valueOfDigits_digitsOf]
      exact (Nat.mul_one n).symm
    · show (0 : Int) - (List.replicate e '0' ++ digitsOf n).length =
        .negSucc e - (digitsOf n).length + 1 - _
      rw [List.length_append, List.length_replicate]
      omega

section

variable {n : Nat} (hn : 0 < n)

include hn

theorem head?_append_digitsOf (rest : List Char) : (digitsOf n ++ rest).head? ≠ some '0' := by
  have hleading := digitsOf_leading hn
  obtain ⟨first, more, hdigits⟩ := List.exists_cons_of_ne_nil (digitsOf_ne_nil n)
  rw [hdigits] at hleading ⊢
  exact hleading

theorem spells_positional_whole {e : Nat} (h : (digitsOf n).length ≤ e + 1) :
    Written.Spells
      ⟨false, digitsOf n ++ List.replicate (e + 1 - (digitsOf n).length) '0', ['0'], none⟩
      (Style.positional (digitsOf n) e) ⟨n, e - (digitsOf n).length + 1⟩ where
  wellFormed := by
    refine ⟨by simp [digitsOf_ne_nil], ?_, ?_, by simp, by simp⟩
    · intro c hc
      rcases List.mem_append.1 hc with hc | hc
      · exact isDigit_of_mem_digitsOf c hc
      · rw [List.eq_of_mem_replicate hc]
        rfl
    · exact fun hzero => absurd hzero (head?_append_digitsOf hn _)
  unsigned := rfl
  text := by
    show _ = (if (digitsOf n).length ≤ e + 1 then _ else _)
    rw [if_pos h]
    simp [Written.text, Written.fractionText, Written.exponentText]
  not_integer := rfl
  zeros := by
    refine ⟨e + 1 - (digitsOf n).length + 1, ?_, ?_⟩
    · rw [List.append_assoc, ← List.replicate_succ', valueOfDigits_append_zeros,
        valueOfDigits_digitsOf]
    · show (0 : Int) - (1 : Nat) = e - (digitsOf n).length + 1 - _
      omega

theorem spells_positional_inside {e : Nat} (h : ¬ (digitsOf n).length ≤ e + 1) :
    Written.Spells ⟨false, (digitsOf n).take (e + 1), (digitsOf n).drop (e + 1), none⟩
      (Style.positional (digitsOf n) e) ⟨n, e - (digitsOf n).length + 1⟩ where
  wellFormed := by
    refine ⟨by simp [digitsOf_ne_nil], ?_, ?_, ?_, by simp⟩
    · exact fun c hc => isDigit_of_mem_digitsOf c (List.mem_of_mem_take hc)
    · intro hzero
      rw [List.head?_take, if_neg (Nat.succ_ne_zero e)] at hzero
      exact absurd hzero (digitsOf_leading hn)
    · exact fun c hc => isDigit_of_mem_digitsOf c (List.mem_of_mem_drop hc)
  unsigned := rfl
  text := by
    obtain ⟨first, more, hdrop⟩ :=
      List.exists_cons_of_ne_nil (mt List.drop_eq_nil_iff.1 h)
    show _ = (if (digitsOf n).length ≤ e + 1 then _ else _)
    rw [if_neg h, hdrop]
    simp [Written.text, Written.fractionText, Written.exponentText]
  not_integer := by simpa [Written.isInteger] using h
  zeros := by
    refine ⟨0, ?_, ?_⟩
    · rw [List.take_append_drop, valueOfDigits_digitsOf]
      exact (Nat.mul_one n).symm
    · show (0 : Int) - ((digitsOf n).drop (e + 1)).length = e - (digitsOf n).length + 1 - _
      rw [List.length_drop]
      omega

theorem exists_spells_positional (exponent : Int) :
    ∃ w : Written, w.Spells (Style.positional (digitsOf n) exponent)
      ⟨n, exponent - (digitsOf n).length + 1⟩ := by
  cases exponent with
  | ofNat e =>
      by_cases h : (digitsOf n).length ≤ e + 1
      · exact ⟨_, spells_positional_whole hn h⟩
      · exact ⟨_, spells_positional_inside hn h⟩
  | negSucc e => exact ⟨_, spells_positional_fraction n e⟩

end

theorem exists_exponentPart (plusSign : Bool) (exponent : Int) :
    ∃ e : ExponentPart, e.WellFormed ∧ e.value = exponent ∧
      e.text = 'e' :: (if plusSign && 0 ≤ exponent then ['+'] else []) ++ numeralOf exponent := by
  cases exponent with
  | ofNat n =>
      refine ⟨⟨'e', if plusSign then ['+'] else [], digitsOf n⟩, ⟨.inl rfl, ?_, digitsOf_ne_nil n,
        isDigit_of_mem_digitsOf⟩, ?_, ?_⟩
      · cases plusSign <;> simp
      · cases plusSign <;> simp [ExponentPart.value, valueOfDigits_digitsOf]
      · cases plusSign <;> simp [ExponentPart.text, numeralOf]
  | negSucc n =>
      refine ⟨⟨'e', ['-'], digitsOf (n + 1)⟩, ⟨.inl rfl, by simp, digitsOf_ne_nil _,
        isDigit_of_mem_digitsOf⟩, ?_, ?_⟩
      · simp [ExponentPart.value, valueOfDigits_digitsOf, Int.negSucc_eq]
      · simp [ExponentPart.text, numeralOf]

theorem exists_spells_scientific {n : Nat} (hn : 0 < n) (plusSign : Bool) (exponent : Int) :
    ∃ w : Written, w.Spells (Style.scientific plusSign (digitsOf n) exponent)
      ⟨n, exponent - (digitsOf n).length + 1⟩ := by
  obtain ⟨e, he, hvalue, htext⟩ := exists_exponentPart plusSign exponent
  obtain ⟨first, more, hdigits⟩ := List.exists_cons_of_ne_nil (digitsOf_ne_nil n)
  have hdigit := isDigit_of_mem_digitsOf (n := n)
  have hleading := digitsOf_leading hn
  have hsum := valueOfDigits_digitsOf n
  rw [hdigits] at hdigit hleading hsum
  refine ⟨⟨false, [first], more, some e⟩, ?_, rfl, ?_, ?_, 0, ?_, ?_⟩
  · refine ⟨by simp, ?_, fun hzero => absurd hzero hleading, ?_, by simpa using he⟩
    · simpa using hdigit first List.mem_cons_self
    · exact fun c hc => hdigit c (List.mem_cons_of_mem _ hc)
  · rw [hdigits]
    cases more with
    | nil =>
      simp [Style.scientific, Written.text, Written.fractionText, Written.exponentText, htext]
    | cons second others =>
        simp [Style.scientific, Written.text, Written.fractionText, Written.exponentText, htext]
  · simp [Written.isInteger]
  · rw [List.singleton_append, hsum]
    exact (Nat.mul_one n).symm
  · show e.value - more.length = exponent - (digitsOf n).length + 1 - _
    rw [hvalue, hdigits, List.length_cons]
    omega

theorem Style.exists_spells_decimal (style : Style) {d : Decimal} (hd : 0 < d.significand) :
    ∃ w : Written, w.Spells (style.decimal d) d := by
  have hexponent : d.exponent + (digitsOf d.significand).length - 1
      - (digitsOf d.significand).length + 1 = d.exponent := by omega
  unfold decimal
  dsimp only
  split
  · obtain ⟨w, hw⟩ := exists_spells_positional hd
      (d.exponent + (digitsOf d.significand).length - 1)
    rw [hexponent] at hw
    exact ⟨w, hw⟩
  · obtain ⟨w, hw⟩ := exists_spells_scientific hd style.plusSign
      (d.exponent + (digitsOf d.significand).length - 1)
    rw [hexponent] at hw
    exact ⟨w, hw⟩

theorem Written.text_of_unsigned {w : Written} (h : w.negative = false) (negative : Bool) :
    ({ w with negative } : Written).text = (if negative then ['-'] else []) ++ w.text := by
  rw [text, text, h]
  rfl

/-- What a style writes for a finite number is a number that is no integer, and reads back
to the same bits. -/
theorem Style.ofText?_write (style : Style) {x : Binary64} (hfinite : x.isFinite = true) :
    ∃ w, Written.ofText? (style.write x) = some w ∧ w.isInteger = false ∧ w.float? = some x := by
  have hsign := Binary64.withSign_magnitude x
  unfold write
  dsimp only
  split
  · next hzero =>
    refine ⟨⟨x.isNegative, ['0'], ['0'], none⟩, ?_, rfl, ?_⟩
    · refine Written.ofText?_eq_some_iff.2 ⟨⟨by simp, by simp, fun _ => rfl, by simp, by simp⟩, ?_⟩
      simp [Written.text, Written.fractionText, Written.exponentText]
    · have hvalue : valueOfDigits (['0'] ++ ['0']) = 0 := by decide
      rw [hzero] at hsign
      show (Decimal.nearest? ⟨valueOfDigits (['0'] ++ ['0']), _⟩).map _ = some x
      rw [hvalue, Decimal.nearest?_zero, Option.map_some]
      exact congrArg some hsign
  · next hx =>
    obtain ⟨w, hw⟩ := style.exists_spells_decimal (shortest_significand_pos hfinite hx style.tie)
    have hform := hw.wellFormed
    refine ⟨{ w with negative := x.isNegative }, ?_, hw.not_integer, ?_⟩
    · refine Written.ofText?_eq_some_iff.2
        ⟨⟨hform.ne_nil, hform.whole, hform.leading, hform.fraction, hform.exponent⟩, ?_⟩
      rw [Written.text_of_unsigned hw.unsigned, hw.text]
    · show w.decimal.nearest?.map (.withSign x.isNegative) = some x
      rw [hw.nearest?, nearest?_shortest hfinite hx, Option.map_some, hsign]

end ScriptLexer.Number
