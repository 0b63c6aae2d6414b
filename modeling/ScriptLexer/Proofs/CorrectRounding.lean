import ScriptLexer.Proofs.NearestNumber
import ScriptLexer.Proofs.ReadNumber
import Mathlib.Algebra.Order.Field.Rat
import Mathlib.Algebra.Order.Ring.Abs
import Mathlib.Data.Rat.Cast.Defs
import Mathlib.Tactic.FieldSimp
import Mathlib.Tactic.Linarith

/-!
Rounding is correct. The value of a floating-point number is a rational, by the formula of
the format, and the number nearest to a rational is defined by distances alone: no finite
number is nearer, and where another one is as near, the significand is even. That leaves
one number at most, and it is the one that rounding finds, at every exponent. The numbers
with the exponent of a quotient, or a greater one, are multiples of one unit, and among
these the rounded multiple is nearest; the others lie below the binade of the quotient.
-/

namespace ScriptLexer.Number

/-! ### Rounding to integers -/

section

variable (num : Nat) {den : Nat} (hden : 0 < den)

include hden

theorem even_roundHalfEven_of_half
    (h : 2 * num + den = 2 * roundHalfEven num den * den ∨
      2 * num = 2 * roundHalfEven num den * den + den) : roundHalfEven num den % 2 = 0 := by
  have hsplit := Nat.div_add_mod num den
  have hlt := Nat.mod_lt num hden
  have hlow : 2 * (num / den) * den = 2 * (den * (num / den)) := by
    rw [Nat.mul_assoc, Nat.mul_comm (num / den) den]
  have hhigh : 2 * (num / den + 1) * den = 2 * (den * (num / den)) + 2 * den := by
    rw [Nat.mul_add, Nat.add_mul, hlow]
  rcases Nat.lt_trichotomy (2 * (num % den)) den with hless | hequal | hgreater
  · have hround : roundHalfEven num den = num / den := if_pos hless
    rw [hround] at h
    omega
  · exact even_roundHalfEven hequal
  · have hround : roundHalfEven num den = num / den + 1 :=
      (if_neg (Nat.lt_asymm hgreater)).trans (if_pos hgreater)
    rw [hround] at h
    omega

theorem abs_roundHalfEven_sub_le :
    |(roundHalfEven num den : ℚ) - num / den| ≤ 1 / 2 := by
  obtain ⟨hlow, hhigh⟩ := @roundHalfEven_within_half num _ hden
  have hpos : (0 : ℚ) < den := Nat.cast_pos.2 hden
  have hlow : (2 * num : ℚ) ≤ (2 * roundHalfEven num den + 1) * den := by exact_mod_cast hlow
  have hhigh : (2 * roundHalfEven num den * den : ℚ) ≤ 2 * num + den := by exact_mod_cast hhigh
  have hquotient : (num : ℚ) = num / den * den := (div_mul_cancel₀ _ hpos.ne').symm
  generalize (num : ℚ) / den = q at hquotient ⊢
  rw [hquotient] at hlow hhigh
  rw [abs_le]
  constructor
  · have hle : 2 * q ≤ 2 * roundHalfEven num den + 1 :=
      le_of_mul_le_mul_right (by linarith) hpos
    linarith
  · have hle : 2 * (roundHalfEven num den : ℚ) ≤ 2 * q + 1 :=
      le_of_mul_le_mul_right (by linarith) hpos
    linarith

theorem roundHalfEven_nearest (k : ℤ) :
    |(roundHalfEven num den : ℚ) - num / den| ≤ |(k : ℚ) - num / den| ∧
      (|(k : ℚ) - num / den| = |(roundHalfEven num den : ℚ) - num / den| →
        k ≠ roundHalfEven num den → roundHalfEven num den % 2 = 0) := by
  have hhalf := abs_roundHalfEven_sub_le num hden
  have heven := even_roundHalfEven_of_half num hden
  have hpos : (0 : ℚ) < den := Nat.cast_pos.2 hden
  have hquotient : (num : ℚ) = num / den * den := (div_mul_cancel₀ _ hpos.ne').symm
  generalize roundHalfEven num den = n at hhalf heven ⊢
  generalize (num : ℚ) / den = q at hhalf hquotient ⊢
  by_cases hk : k = n
  · subst hk
    exact ⟨le_rfl, fun _ h => absurd rfl h⟩
  · -- The two integers are one apart at least, so the other one is half of that away.
    have hapart : (1 : ℚ) ≤ |(k : ℚ) - n| := by
      exact_mod_cast Int.one_le_abs (sub_ne_zero.2 hk)
    have htriangle := abs_sub_le (k : ℚ) q n
    rw [abs_sub_comm q] at htriangle
    refine ⟨by linarith, fun hequal _ => heven ?_⟩
    have hexact : |(n : ℚ) - q| = 1 / 2 := by linarith
    rcases (abs_eq (by norm_num)).1 hexact with h | h
    · left
      have : (2 * num + den : ℚ) = 2 * n * den := by
        rw [hquotient, show (n : ℚ) = q + 1 / 2 by linarith]
        ring
      exact_mod_cast this
    · right
      have : (2 * num : ℚ) = 2 * n * den + den := by
        rw [hquotient, show (n : ℚ) = q - 1 / 2 by linarith]
        ring
      exact_mod_cast this

end

namespace Binary64

/-! ### The value of a number -/

/-- The value of a finite number. Its significand has a leading one, unless the exponent is
the least. -/
def value (x : Binary64) : ℚ :=
  let size : ℚ :=
    if x.exponentField = 0 then x.fraction / 2 ^ 52 * 2 ^ (-1022 : ℤ)
    else (1 + x.fraction / 2 ^ 52) * 2 ^ (x.exponentField - 1023 : ℤ)
  if x.isNegative then -size else size

def unit (scale : Nat) : ℚ := 2 ^ scale / 2 ^ 1074

theorem unit_pos (scale : Nat) : 0 < unit scale :=
  div_pos (pow_pos two_pos scale) (pow_pos two_pos 1074)

theorem unit_add (scale more : Nat) : unit (scale + more) = 2 ^ more * unit scale := by
  rw [unit, unit, pow_add, mul_comm (2 ^ scale), mul_div_assoc]

theorem unit_add_least (e : Nat) : unit (e + 1074) = 2 ^ e := by
  rw [unit, pow_add]
  exact mul_div_cancel_right₀ _ (pow_ne_zero _ two_ne_zero)

theorem value_eq (x : Binary64) :
    x.value = if x.isNegative then -(x.significand * unit x.scale)
      else x.significand * unit x.scale := by
  have hpow : (2 : ℚ) ^ 1074 = 2 ^ 52 * 2 ^ 1022 := by rw [← pow_add]
  have hsize : (if x.exponentField = 0 then x.fraction / 2 ^ 52 * 2 ^ (-1022 : ℤ)
      else (1 + x.fraction / 2 ^ 52) * 2 ^ (x.exponentField - 1023 : ℤ) : ℚ) =
      x.significand * unit x.scale := by
    unfold significand scale unit
    rw [hpow]
    by_cases h : x.exponentField = 0
    · have hneg : (2 : ℚ) ^ (-1022 : ℤ) = 1 / 2 ^ 1022 := by
        rw [zpow_neg, one_div]
        rfl
      rw [if_pos h, if_pos h, h, hneg]
      generalize (2 : ℚ) ^ 1022 = great
      ring
    · obtain ⟨e, he⟩ := Nat.exists_eq_succ_of_ne_zero h
      have hexponent : (2 : ℚ) ^ (x.exponentField - 1023 : ℤ) = 2 ^ e / 2 ^ 1022 := by
        rw [he, show ((e.succ : ℕ) - 1023 : ℤ) = e - (1022 : ℕ) by push_cast; ring,
          zpow_sub₀ (by norm_num), zpow_natCast, zpow_natCast]
      rw [if_neg h, if_neg h, hexponent, he, Nat.succ_sub_one]
      generalize (2 : ℚ) ^ 1022 = great
      push_cast [Nat.pow_eq]
      field_simp
      norm_num
  unfold value
  rw [hsize]

theorem unit_le_unit {scale other : Nat} (h : scale ≤ other) : unit scale ≤ unit other := by
  obtain ⟨more, rfl⟩ := Nat.exists_eq_add_of_le h
  rw [unit_add]
  exact le_mul_of_one_le_left (unit_pos scale).le (one_le_pow₀ one_le_two)

theorem value_le (x : Binary64) : x.value ≤ x.significand * unit x.scale := by
  have hnonneg : (0 : ℚ) ≤ x.significand * unit x.scale :=
    mul_nonneg (Nat.cast_nonneg _) (unit_pos _).le
  rw [value_eq]
  split
  · exact (neg_nonpos.2 hnonneg).trans hnonneg
  · exact le_rfl

theorem le_significand (x : Binary64) (hx : 0 < x.scale) : 2 ^ 52 ≤ x.significand := by
  rw [(significand_of_scale_pos hx).2]
  exact Nat.le_add_right ..

theorem exists_value_eq_mul_unit {x : Binary64} {scale : Nat} (h : scale ≤ x.scale) :
    ∃ k : ℤ, x.value = k * unit scale := by
  obtain ⟨more, hmore⟩ := Nat.exists_eq_add_of_le h
  rw [value_eq, hmore, unit_add, ← mul_assoc]
  split
  · refine ⟨-(x.significand * 2 ^ more), ?_⟩
    push_cast
    rw [neg_mul]
  · refine ⟨x.significand * 2 ^ more, ?_⟩
    push_cast
    rfl

theorem value_lt_of_scale_lt {x : Binary64} {scale : Nat} (h : x.scale < scale) :
    x.value < 2 ^ 52 * unit scale := by
  have hsignificand : (x.significand : ℚ) < 2 ^ 53 := by exact_mod_cast x.significand_lt
  calc x.value
      ≤ x.significand * unit x.scale := x.value_le
    _ < 2 ^ 53 * unit x.scale := mul_lt_mul_of_pos_right hsignificand (unit_pos _)
    _ = 2 ^ 52 * unit (x.scale + 1) := by rw [unit_add]; ring
    _ ≤ 2 ^ 52 * unit scale := mul_le_mul_of_nonneg_left (unit_le_unit h) (by positivity)

/-! ### The nearest number -/

/-- `x` is the number nearest to `v`: finite, without a sign, as near as any finite number,
and with an even significand if a number of another value is as near. -/
structure IsNearest (v : ℚ) (x : Binary64) : Prop where
  isFinite : x.isFinite = true
  isNegative : x.isNegative = false
  nearest : ∀ y : Binary64, y.isFinite = true → |x.value - v| ≤ |y.value - v|
  even : ∀ y : Binary64, y.isFinite = true → |y.value - v| = |x.value - v| →
    y.value ≠ x.value → x.significand % 2 = 0

theorem value_lt_value {x y : Binary64} (hy : y.isNegative = false)
    (h : x.magnitude < y.magnitude) : x.value < y.value := by
  have hylt := y.significand_lt
  rw [magnitude_eq, magnitude_eq] at h
  have hyvalue : y.value = y.significand * unit y.scale := by
    rw [value_eq, hy, if_neg Bool.false_ne_true]
  rcases Nat.lt_trichotomy x.scale y.scale with hless | hequal | hgreater
  · have hle : (2 ^ 52 : ℚ) ≤ y.significand := by
      exact_mod_cast y.le_significand (by omega)
    rw [hyvalue]
    exact (value_lt_of_scale_lt hless).trans_le (mul_le_mul_of_nonneg_right hle (unit_pos _).le)
  · have hsignificand : x.significand < y.significand := by
      rw [hequal] at h
      omega
    rw [hyvalue, ← hequal]
    exact x.value_le.trans_lt (mul_lt_mul_of_pos_right (Nat.cast_lt.2 hsignificand) (unit_pos _))
  · have hxleading := x.le_significand (by omega)
    omega

theorem magnitude_of_not_isNegative {x : Binary64} (hx : x.isNegative = false) :
    x.magnitude = x.bits.toNat :=
  Nat.mod_eq_of_lt (Nat.lt_of_not_le (of_decide_eq_false hx))

theorem magnitude_mod_two (x : Binary64) : x.magnitude % 2 = x.significand % 2 := by
  rw [magnitude_eq]
  omega

theorem isFinite_iff {x : Binary64} : x.isFinite = true ↔ x.magnitude < infinityBits :=
  decide_eq_true_iff

/-- Between two numbers that are as near as any there is a nearer one, unless they are
neighbours, and of two neighbours one is odd. -/
theorem IsNearest.magnitude_le {v : ℚ} {x y : Binary64} (hx : IsNearest v x)
    (hy : IsNearest v y) : y.magnitude ≤ x.magnitude := by
  by_contra hless
  have hlt := value_lt_value hy.isNegative (Nat.lt_of_not_le hless)
  have hequal : |y.value - v| = |x.value - v| :=
    le_antisymm (hy.nearest x hx.isFinite) (hx.nearest y hy.isFinite)
  have hxeven := hx.even y hy.isFinite hequal hlt.ne'
  have hyeven := hy.even x hx.isFinite hequal.symm hlt.ne
  rw [← magnitude_mod_two] at hxeven hyeven
  have hynext : x.magnitude + 1 < y.magnitude := by omega
  have hfinite := hynext.trans (isFinite_iff.1 hy.isFinite)
  obtain ⟨hmagnitude, hnegative⟩ := magnitude_ofNat hfinite
  generalize (⟨UInt64.ofNat (x.magnitude + 1)⟩ : Binary64) = z at hmagnitude hnegative
  have hxz : x.value < z.value := value_lt_value hnegative (by omega)
  have hzy : z.value < y.value := value_lt_value hy.isNegative (by omega)
  have hnearer : |z.value - v| < |x.value - v| := by
    have hlow := neg_abs_le (x.value - v)
    have hhigh := le_abs_self (y.value - v)
    rw [abs_lt]
    constructor <;> linarith
  have hle := hx.nearest z (isFinite_iff.2 (hmagnitude ▸ hfinite))
  exact absurd hle (not_le_of_gt hnearer)

theorem IsNearest.unique {v : ℚ} {x y : Binary64} (hx : IsNearest v x) (hy : IsNearest v y) :
    x = y := by
  have hmagnitude := Nat.le_antisymm (hy.magnitude_le hx) (hx.magnitude_le hy)
  rw [magnitude_of_not_isNegative hx.isNegative, magnitude_of_not_isNegative hy.isNegative,
    UInt64.toNat_inj] at hmagnitude
  exact congrArg Binary64.mk hmagnitude

theorem exists_binade {num den scaled : Nat} (hden : 0 < den)
    (hscaled : num * Nat.pow 2 1074 = scaled) :
    ∃ scale, (scale = 0 ∨ 2 ^ 52 * (den * 2 ^ scale) ≤ scaled) ∧
      scaled < 2 ^ 53 * (den * 2 ^ scale) ∧
      nearestBits num den = scale * 2 ^ 52 + roundHalfEven scaled (den * 2 ^ scale) := by
  generalize hscale : Nat.log2 (scaled / den) - 52 = scale
  have hlow : scale = 0 ∨ den * 2 ^ (52 + scale) ≤ scaled := by
    rw [or_iff_not_imp_left]
    intro hpos
    have hne : scaled / den ≠ 0 := by
      rintro hzero
      rw [hzero] at hscale
      exact hpos hscale.symm
    have hle := Nat.log2_self_le hne
    rw [Nat.le_div_iff_mul_le hden, Nat.mul_comm] at hle
    rwa [show 52 + scale = Nat.log2 (scaled / den) by omega]
  have hhigh : scaled < den * 2 ^ (53 + scale) := by
    have hlt : scaled / den < 2 ^ (53 + scale) :=
      Nat.lt_of_lt_of_le Nat.lt_log2_self (Nat.pow_le_pow_right two_pos (by omega))
    rw [Nat.mul_comm]
    exact (Nat.div_lt_iff_lt_mul hden).1 hlt
  refine ⟨scale, ?_, ?_, nearestBits_eq scale hscaled hden hlow hhigh⟩
  · rwa [← RoundingInterval.mul_two_pow_add]
  · rwa [← RoundingInterval.mul_two_pow_add]

section

variable {den scaled scale : Nat} (hden : 0 < den)

include hden

theorem roundHalfEven_le_of_lt (h : scaled < 2 ^ 53 * (den * 2 ^ scale)) :
    roundHalfEven scaled (den * 2 ^ scale) ≤ 2 ^ 53 := by
  have hunit : 0 < den * 2 ^ scale := Nat.mul_pos hden (Nat.two_pow_pos scale)
  have hwithin := (@roundHalfEven_within_half scaled _ hunit).2
  by_contra hgreat
  have hle := Nat.mul_le_mul_right (den * 2 ^ scale) (Nat.lt_of_not_le hgreat)
  rw [Nat.succ_mul] at hle
  rw [Nat.mul_assoc] at hwithin
  omega

theorem le_roundHalfEven_of_le (h : 2 ^ 52 * (den * 2 ^ scale) ≤ scaled) :
    2 ^ 52 ≤ roundHalfEven scaled (den * 2 ^ scale) := by
  have hunit : 0 < den * 2 ^ scale := Nat.mul_pos hden (Nat.two_pow_pos scale)
  have hwithin := (@roundHalfEven_within_half scaled _ hunit).1
  by_contra hsmall
  have hle := Nat.mul_le_mul_right (den * 2 ^ scale) (Nat.lt_of_not_le hsmall)
  rw [Nat.succ_mul] at hle
  rw [Nat.add_mul, Nat.mul_assoc] at hwithin
  omega

end

/-- A rounded significand that has one bit too many is carried into the exponent, and the
value stays the same. -/
theorem value_of_magnitude_eq {x : Binary64} {scale n : Nat}
    (hx : x.magnitude = scale * 2 ^ 52 + n) (hlow : scale = 0 ∨ 2 ^ 52 ≤ n)
    (hhigh : n ≤ 2 ^ 53) :
    (x.significand : ℚ) * unit x.scale = n * unit scale ∧ x.significand % 2 = n % 2 := by
  have hparts : x.scale = scale ∧ x.significand = n ∨
      x.scale = scale + 1 ∧ n = 2 ^ 53 ∧ x.significand = 2 ^ 52 := by
    have hlt := x.significand_lt
    have hleading := x.le_significand
    rw [magnitude_eq] at hx
    omega
  rcases hparts with ⟨hscale, hsignificand⟩ | ⟨hscale, rfl, hsignificand⟩
  · rw [hscale, hsignificand]
    exact ⟨rfl, rfl⟩
  · rw [hscale, hsignificand, unit_add]
    refine ⟨?_, rfl⟩
    push_cast
    ring

theorem div_eq_mul_unit {den : Nat} (hden : 0 < den) (num scale : Nat) :
    (num / den : ℚ) = (num * Nat.pow 2 1074 : ℕ) / (den * 2 ^ scale : ℕ) * unit scale := by
  have hden : (den : ℚ) ≠ 0 := Nat.cast_ne_zero.2 hden.ne'
  have hscale : (2 : ℚ) ^ scale ≠ 0 := pow_ne_zero _ two_ne_zero
  unfold unit
  generalize 1074 = bits
  have hunits : (2 : ℚ) ^ bits ≠ 0 := pow_ne_zero _ two_ne_zero
  push_cast [Nat.pow_eq]
  field_simp

theorem abs_mul_unit_sub (k q : ℚ) (scale : Nat) :
    |k * unit scale - q * unit scale| = |k - q| * unit scale := by
  rw [← sub_mul, abs_mul, abs_of_pos (unit_pos scale)]

/-- What lies below the binade of `q` units is less near than the power of two with which
the binade begins, and so than the nearest multiple. -/
theorem abs_sub_lt_of_scale_lt {n q : ℚ} {scale : Nat} (hbinade : 2 ^ 52 ≤ q)
    (hcorner : |n - q| ≤ |2 ^ 52 - q|) {y : Binary64} (hy : y.scale < scale) :
    |n * unit scale - q * unit scale| < |y.value - q * unit scale| := by
  have hpos := unit_pos scale
  have hbelow := value_lt_of_scale_lt hy
  have hfrom := mul_le_mul_of_nonneg_right hbinade hpos.le
  calc |n * unit scale - q * unit scale|
      = |n - q| * unit scale := abs_mul_unit_sub ..
    _ ≤ |2 ^ 52 - q| * unit scale := mul_le_mul_of_nonneg_right hcorner hpos.le
    _ = q * unit scale - 2 ^ 52 * unit scale := by
        rw [abs_sub_comm, abs_of_nonneg (sub_nonneg.2 hbinade), sub_mul]
    _ < q * unit scale - y.value := sub_lt_sub_left hbelow _
    _ = |y.value - q * unit scale| := by
        rw [abs_sub_comm, abs_of_pos (sub_pos.2 (hbelow.trans_le hfrom))]

theorem isNearest_of_value_eq {num den scaled scale : Nat} (hden : 0 < den)
    (hscaled : num * Nat.pow 2 1074 = scaled)
    (hlow : scale = 0 ∨ 2 ^ 52 * (den * 2 ^ scale) ≤ scaled) {x : Binary64}
    (hfinite : x.isFinite = true) (hnegative : x.isNegative = false)
    (hvalue : x.value = roundHalfEven scaled (den * 2 ^ scale) * unit scale)
    (heven : x.significand % 2 = roundHalfEven scaled (den * 2 ^ scale) % 2) :
    IsNearest (num / den) x := by
  have hunit : 0 < den * 2 ^ scale := Nat.mul_pos hden (Nat.two_pow_pos scale)
  have hnearest := roundHalfEven_nearest scaled hunit
  have hbinade : scale = 0 ∨ (2 ^ 52 : ℚ) ≤ scaled / (den * 2 ^ scale : ℕ) := by
    refine hlow.imp_right fun h => (le_div_iff₀ (Nat.cast_pos.2 hunit)).2 ?_
    exact_mod_cast h
  rw [div_eq_mul_unit hden num scale, hscaled]
  generalize roundHalfEven scaled (den * 2 ^ scale) = n at hnearest hvalue heven
  generalize (scaled : ℚ) / (den * 2 ^ scale : ℕ) = q at hnearest hbinade
  have hbelow : ∀ y : Binary64, y.scale < scale →
      |x.value - q * unit scale| < |y.value - q * unit scale| := by
    intro y hy
    have hcorner := (hnearest (2 ^ 52)).1
    rw [Int.cast_pow, Int.cast_ofNat] at hcorner
    rw [hvalue]
    exact abs_sub_lt_of_scale_lt (hbinade.resolve_left (by omega)) hcorner hy
  refine ⟨hfinite, hnegative, ?_, ?_⟩
  · intro y _
    rcases Nat.lt_or_ge y.scale scale with hy | hy
    · exact (hbelow y hy).le
    · obtain ⟨k, hk⟩ := exists_value_eq_mul_unit hy
      rw [hvalue, hk, abs_mul_unit_sub, abs_mul_unit_sub]
      exact mul_le_mul_of_nonneg_right (hnearest k).1 (unit_pos scale).le
  · intro y _ hequal hne
    rcases Nat.lt_or_ge y.scale scale with hy | hy
    · exact absurd hequal (hbelow y hy).ne'
    · obtain ⟨k, hk⟩ := exists_value_eq_mul_unit hy
      rw [hvalue, hk] at hne
      rw [hvalue, hk, abs_mul_unit_sub, abs_mul_unit_sub] at hequal
      rw [heven]
      apply (hnearest k).2 (mul_right_cancel₀ (unit_pos scale).ne' hequal)
      rintro rfl
      exact hne rfl

theorem isNearest_of_ofQuotient? {num den : Nat} (hden : 0 < den) {x : Binary64}
    (h : ofQuotient? num den = some x) : IsNearest (num / den) x := by
  have hfinite := isFinite_of_ofQuotient? h
  obtain ⟨_, hmagnitude, hnegative⟩ := magnitude_of_ofQuotient? h
  obtain ⟨scale, hlow, hhigh, hbits⟩ := exists_binade hden rfl
  obtain ⟨hvalue, heven⟩ := value_of_magnitude_eq (hmagnitude.trans hbits)
    (hlow.imp_right (le_roundHalfEven_of_le hden)) (roundHalfEven_le_of_lt hden hhigh)
  apply isNearest_of_value_eq hden rfl hlow hfinite hnegative _ heven
  rw [value_eq, hnegative, if_neg Bool.false_ne_true, hvalue]

/-! ### Where rounding reaches infinity -/

theorem threshold_eq (e : Nat) : (2 ^ 54 - 1 : ℕ) * (2 : ℚ) ^ e = 2 ^ (54 + e) - 2 ^ e := by
  rw [pow_add]
  norm_num
  ring

section

variable {den scaled : Nat} (hden : 0 < den)

include hden

theorem le_roundHalfEven_iff (e : Nat) :
    2 ^ 53 ≤ roundHalfEven scaled (den * 2 ^ (1 + e)) ↔
      (2 ^ 54 - 1) * (den * 2 ^ e) ≤ scaled := by
  have hunit : 0 < den * 2 ^ e := Nat.mul_pos hden (Nat.two_pow_pos e)
  rw [RoundingInterval.mul_two_pow_add, Nat.pow_one]
  generalize den * 2 ^ e = half at hunit
  have hpos : 0 < 2 * half := by omega
  obtain ⟨hto, hfrom⟩ := @roundHalfEven_within_half scaled _ hpos
  have heven := even_roundHalfEven_of_half scaled hpos
  generalize roundHalfEven scaled (2 * half) = n at hto hfrom heven
  have hmul : 2 * n * (2 * half) = 4 * (n * half) := by ring
  rw [Nat.add_mul, hmul] at hto
  rw [hmul] at hfrom heven
  constructor
  · intro hn
    have hle := Nat.mul_le_mul_right half hn
    omega
  · intro hscaled
    by_contra hn
    rcases Nat.lt_or_ge n (2 ^ 53 - 1) with hless | hge
    · have hle := Nat.mul_le_mul_right half hless
      rw [Nat.succ_mul] at hle
      omega
    · -- Between the last significand and the power, which is the even one of the two.
      obtain rfl : n = 2 ^ 53 - 1 := by omega
      have := heven (.inr (by omega))
      contradiction

theorem le_nearestBits_iff (num e : Nat) :
    (e + 3) * 2 ^ 52 ≤ nearestBits num den ↔ (2 ^ 54 - 1 : ℕ) * unit e ≤ (num / den : ℚ) := by
  obtain ⟨scaled, hscaled⟩ : ∃ scaled, num * Nat.pow 2 1074 = scaled := ⟨_, rfl⟩
  obtain ⟨scale, hlow, hhigh, hbits⟩ := exists_binade hden hscaled
  have hunit : 0 < den * 2 ^ e := Nat.mul_pos hden (Nat.two_pow_pos e)
  have hunits : (2 ^ 54 - 1 : ℕ) * unit e ≤ (num / den : ℚ) ↔
      (2 ^ 54 - 1) * (den * 2 ^ e) ≤ scaled := by
    rw [div_eq_mul_unit hden num e, hscaled, mul_le_mul_iff_left₀ (unit_pos e),
      le_div_iff₀ (Nat.cast_pos.2 hunit), ← Nat.cast_mul, Nat.cast_le]
  have hle := roundHalfEven_le_of_lt hden hhigh
  rw [hunits, hbits]
  rcases Nat.lt_trichotomy scale (1 + e) with hless | rfl | hgreater
  · have hscale : den * 2 ^ scale ≤ den * 2 ^ e :=
      Nat.mul_le_mul_left den (Nat.pow_le_pow_right two_pos (by omega))
    omega
  · rw [← le_roundHalfEven_iff hden]
    omega
  · have hlow := hlow.resolve_left (by omega)
    have hge := le_roundHalfEven_of_le hden hlow
    have hscale : den * 2 ^ (2 + e) ≤ den * 2 ^ scale :=
      Nat.mul_le_mul_left den (Nat.pow_le_pow_right two_pos (by omega))
    rw [RoundingInterval.mul_two_pow_add] at hscale
    omega

/-- A quotient is too great from the middle between the greatest finite number and the
power of two above it. -/
theorem ofQuotient?_eq_none_iff {num : Nat} :
    ofQuotient? num den = none ↔ (2 ^ 1024 - 2 ^ 970 : ℚ) ≤ num / den := by
  have hnone : ofQuotient? num den = none ↔
      (970 + 1074 + 3) * 2 ^ 52 ≤ nearestBits num den := by
    rw [ofQuotient?, ite_eq_right_iff, ← Nat.not_lt]
    simp [infinityBits]
  rw [hnone, le_nearestBits_iff hden, unit_add_least, threshold_eq]

end

/-- The two sides of that middle. -/
example : ofQuotient? (2 ^ 1024 - 2 ^ 970 - 1) 1 = some ⟨0x7FEFFFFFFFFFFFFF⟩ ∧
    ofQuotient? (2 ^ 1024 - 2 ^ 970) 1 = none := by
  decide +kernel

end Binary64

end ScriptLexer.Number
