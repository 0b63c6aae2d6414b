import ScriptLexer.Number.Shortest
import Mathlib.Tactic.Ring

/-!
Decimals that stand for a number. Every quotient in the rounding interval of a number is
rounded to that number: the quotient lies in the binade of the number, where the interval
is half a unit to each side, or it lies just below a power of two, where the units are
half as wide and the rounding carries. The search for the shortest decimal returns only
points of the interval, and it does return one, since the finest grid has a point between
any number and the end of its interval. So the shortest decimal reads back.
-/

namespace ScriptLexer.Number

theorem roundHalfEven_eq {num den n : Nat} (hden : 0 < den)
    (hlow : 2 * (n * den) ≤ 2 * num + den) (hhigh : 2 * num ≤ 2 * (n * den) + den)
    (htie : 2 * (n * den) = 2 * num + den ∨ 2 * num = 2 * (n * den) + den → n % 2 = 0) :
    roundHalfEven num den = n := by
  have hsplit := Nat.div_add_mod num den
  have hlt := Nat.mod_lt num hden
  have hfrom : num / den ≤ n := by
    by_contra h
    have hle : (n + 1) * den ≤ num / den * den := Nat.mul_le_mul_right den (by omega)
    rw [Nat.add_mul, Nat.mul_comm (num / den)] at hle
    omega
  have hto : n ≤ num / den + 1 := by
    by_contra h
    have hle : (num / den + 2) * den ≤ n * den := Nat.mul_le_mul_right den (by omega)
    rw [Nat.add_mul, Nat.mul_comm (num / den)] at hle
    omega
  -- So `n` is the whole part of the quotient or one more, as is what is rounded to.
  unfold roundHalfEven
  simp only
  rcases Nat.eq_or_lt_of_le hfrom with rfl | hfrom
  · rw [Nat.mul_comm (num / den)] at hhigh htie
    split
    · rfl
    · rw [if_neg (by omega), if_pos (htie (.inr (by omega)))]
  · obtain rfl : n = num / den + 1 := by omega
    rw [Nat.add_mul, Nat.one_mul, Nat.mul_comm (num / den)] at hlow htie
    rw [if_neg (by omega)]
    split
    · rfl
    · have heven := htie (.inl (by omega))
      rw [if_neg (by omega)]

theorem roundHalfEven_mul_right {c : Nat} (hc : 0 < c) (num den : Nat) :
    roundHalfEven (num * c) (den * c) = roundHalfEven num den := by
  have htwice : 2 * (num % den * c) = 2 * (num % den) * c := (Nat.mul_assoc ..).symm
  unfold roundHalfEven
  simp only [Nat.mul_div_mul_right _ _ hc, Nat.mul_mod_mul_right, htwice,
    Nat.mul_lt_mul_right hc]

namespace Binary64

/-! ### The parts of a pattern -/

theorem magnitude_eq (x : Binary64) :
    x.magnitude = x.scale * 2 ^ 52 + x.significand := by
  unfold scale significand exponentField fraction
  simp only [Nat.pow_eq]
  split <;> omega

theorem magnitude_lt (x : Binary64) : x.magnitude < UInt64.size :=
  Nat.lt_trans (Nat.mod_lt _ (by decide)) (by decide)

theorem significand_lt (x : Binary64) : x.significand < 2 ^ 53 := by
  unfold significand exponentField fraction
  simp only [Nat.pow_eq]
  split <;> omega

theorem significand_pos {x : Binary64} (hx : x.magnitude ≠ 0) : 0 < x.significand := by
  unfold significand exponentField fraction
  simp only [Nat.pow_eq]
  split <;> omega

theorem significand_of_scale_pos {x : Binary64} (hx : 0 < x.scale) :
    1 < x.exponentField ∧ x.significand = 2 ^ 52 + x.fraction := by
  unfold scale at hx
  refine ⟨by omega, ?_⟩
  unfold significand
  rw [if_neg (by omega)]
  rfl

/-! ### Rounding a quotient -/

/-- The exponent of a quotient that has at most 53 bits before the point at a scale, and
no fewer unless the scale is the least. -/
theorem log2_div_sub_eq {num den scale : Nat} (hden : 0 < den)
    (hlow : scale = 0 ∨ den * 2 ^ (52 + scale) ≤ num) (hhigh : num < den * 2 ^ (53 + scale)) :
    Nat.log2 (num / den) - 52 = scale := by
  by_cases hzero : num / den = 0
  · rcases hlow with rfl | hlow
    · rw [hzero]
      rfl
    · have hpow : 0 < 2 ^ (52 + scale) := Nat.two_pow_pos _
      rw [Nat.mul_comm, ← Nat.le_div_iff_mul_le hden, hzero] at hlow
      omega
  · have hto : Nat.log2 (num / den) < 53 + scale := by
      rw [Nat.log2_lt hzero, Nat.div_lt_iff_lt_mul hden, Nat.mul_comm]
      exact hhigh
    rcases hlow with rfl | hlow
    · omega
    · have hfrom : 52 + scale ≤ Nat.log2 (num / den) := by
        rw [Nat.le_log2 hzero, Nat.le_div_iff_mul_le hden, Nat.mul_comm]
        exact hlow
      omega

theorem nearestBits_eq {num den scaled : Nat} (scale : Nat)
    (hscaled : num * Nat.pow 2 1074 = scaled)
    (hden : 0 < den) (hlow : scale = 0 ∨ den * 2 ^ (52 + scale) ≤ scaled)
    (hhigh : scaled < den * 2 ^ (53 + scale)) :
    nearestBits num den = scale * 2 ^ 52 + roundHalfEven scaled (den * 2 ^ scale) := by
  have hscale := log2_div_sub_eq hden hlow hhigh
  unfold nearestBits
  rw [hscaled]
  show (Nat.log2 (scaled / den) - 52) * Nat.pow 2 52 +
    roundHalfEven scaled (den * Nat.pow 2 (Nat.log2 (scaled / den) - 52)) = _
  rw [hscale]
  rfl

theorem nearestBits_mul_right {c : Nat} (hc : 0 < c) (num den : Nat) :
    nearestBits (num * c) (den * c) = nearestBits num den := by
  have hdiv : num * c * Nat.pow 2 1074 / (den * c) = num * Nat.pow 2 1074 / den := by
    rw [Nat.mul_right_comm, Nat.mul_div_mul_right _ _ hc]
  unfold nearestBits
  dsimp only
  rw [hdiv, Nat.mul_right_comm num, Nat.mul_right_comm den, roundHalfEven_mul_right hc]

theorem nearestBits_congr {num den num' den' : Nat} (hden : 0 < den) (hden' : 0 < den')
    (h : num * den' = num' * den) : nearestBits num den = nearestBits num' den' := by
  rw [← nearestBits_mul_right hden' num den, ← nearestBits_mul_right hden num' den', h,
    Nat.mul_comm den']

end Binary64

namespace Decimal

def num (d : Decimal) : Nat := d.significand * Nat.pow 10 d.exponent.toNat

def den (d : Decimal) : Nat := Nat.pow 10 (-d.exponent).toNat

end Decimal

namespace RoundingInterval

open Binary64

/-- What it means for a quotient, in units of `2 ^ -1076`, to lie in the interval of a
number: it is at most half a unit of the number away, and at most a quarter below a
power of two. -/
theorem contains_ofBinary64 {x : Binary64} {num den : Nat}
    (h : (ofBinary64 x).contains num den = true) :
    ∃ below, below ≤ 2 ∧ (0 < x.scale → x.fraction = 0 → below = 1) ∧
      (4 * x.significand - below) * (den * 2 ^ x.scale) ≤ num ∧
      num ≤ (4 * x.significand + 2) * (den * 2 ^ x.scale) ∧
      (x.significand % 2 = 1 → (4 * x.significand - below) * (den * 2 ^ x.scale) < num ∧
        num < (4 * x.significand + 2) * (den * 2 ^ x.scale)) := by
  have hmul : ∀ a : Nat, a * Nat.pow 2 x.scale * den = a * (den * 2 ^ x.scale) := by
    intro a
    rw [Nat.pow_eq, Nat.mul_assoc, Nat.mul_comm den]
  refine ⟨if x.fraction = 0 ∧ 1 < x.exponentField then 1 else 2, by split <;> omega, ?_, ?_⟩
  · intro hscale hfraction
    rw [if_pos ⟨hfraction, (significand_of_scale_pos hscale).1⟩]
  · unfold contains ofBinary64 at h
    simp only [hmul, decide_eq_true_eq] at h
    split at h
    · next heven =>
      simp only [Bool.and_eq_true, decide_eq_true_eq] at h
      refine ⟨h.1, h.2, fun hodd => ?_⟩
      omega
    · simp only [Bool.and_eq_true, decide_eq_true_eq] at h
      exact ⟨Nat.le_of_lt h.1, Nat.le_of_lt h.2, fun _ => h⟩

theorem mul_unitsPerOne (num : Nat) : num * unitsPerOne = 4 * (num * Nat.pow 2 1074) := by
  have hunits : unitsPerOne = 4 * Nat.pow 2 1074 := by decide +kernel
  rewrite [hunits]
  generalize Nat.pow 2 1074 = units
  exact Nat.mul_left_comm num 4 units

theorem mul_two_pow_add (den bits scale : Nat) :
    den * 2 ^ (bits + scale) = 2 ^ bits * (den * 2 ^ scale) := by
  rw [Nat.pow_add, Nat.mul_left_comm]

section

variable {num den scaled : Nat} (hscaled : num * Nat.pow 2 1074 = scaled) (hden : 0 < den)

include hscaled hden

/-- In the binade of a number, half a unit to each side belongs to the number. -/
theorem nearestBits_of_binade {scale significand : Nat} (hsignificand : significand < 2 ^ 53)
    (hbinade : scale = 0 ∨ 2 ^ 52 * (den * 2 ^ scale) ≤ scaled)
    (hlow : 2 * (significand * (den * 2 ^ scale)) ≤ 2 * scaled + den * 2 ^ scale)
    (hhigh : 2 * scaled ≤ 2 * (significand * (den * 2 ^ scale)) + den * 2 ^ scale)
    (hodd : significand % 2 = 1 →
      2 * (significand * (den * 2 ^ scale)) < 2 * scaled + den * 2 ^ scale ∧
        2 * scaled < 2 * (significand * (den * 2 ^ scale)) + den * 2 ^ scale) :
    nearestBits num den = scale * 2 ^ 52 + significand := by
  have hunit : 0 < den * 2 ^ scale := Nat.mul_pos hden (Nat.two_pow_pos scale)
  have hbelow : significand * (den * 2 ^ scale) ≤ (2 ^ 53 - 1) * (den * 2 ^ scale) :=
    Nat.mul_le_mul_right _ (by omega)
  rw [nearestBits_eq scale hscaled hden, roundHalfEven_eq hunit hlow hhigh]
  · intro htie
    by_contra heven
    have := hodd (by omega)
    omega
  · rw [mul_two_pow_add]
    exact hbinade
  · rw [mul_two_pow_add]
    omega

/-- Just below a power of two the units are half as wide, and a quarter of the unit above
it belongs to the power. -/
theorem nearestBits_below_power {scale : Nat}
    (hlow : (2 ^ 54 - 1) * (den * 2 ^ (scale + 1)) ≤ 4 * scaled)
    (hhigh : scaled < 2 ^ 52 * (den * 2 ^ (scale + 1))) :
    nearestBits num den = (scale + 1) * 2 ^ 52 + 2 ^ 52 := by
  have hunit : 0 < den * 2 ^ scale := Nat.mul_pos hden (Nat.two_pow_pos scale)
  have htwice : den * 2 ^ (scale + 1) = 2 * (den * 2 ^ scale) := by
    rw [Nat.add_comm, mul_two_pow_add, Nat.pow_one]
  rw [htwice] at hlow hhigh
  rw [nearestBits_eq scale hscaled hden, roundHalfEven_eq (n := 2 ^ 53) hunit]
  · omega
  · omega
  · omega
  · exact fun _ => rfl
  · rw [mul_two_pow_add]
    omega
  · rw [mul_two_pow_add]
    omega

end

theorem nearestBits_of_contains {x : Binary64} (hx : x.magnitude ≠ 0) {num den : Nat}
    (hden : 0 < den) (h : (ofBinary64 x).contains (num * unitsPerOne) den = true) :
    nearestBits num den = x.magnitude := by
  rw [mul_unitsPerOne] at h
  generalize hscaled : num * Nat.pow 2 1074 = scaled at h
  obtain ⟨below, hbelow, hpower, hlow, hhigh, hodd⟩ := contains_ofBinary64 h
  have hunit : 0 < den * 2 ^ x.scale := Nat.mul_pos hden (Nat.two_pow_pos x.scale)
  have hpos := significand_pos hx
  have hwidth : below * (den * 2 ^ x.scale) ≤ 2 * (den * 2 ^ x.scale) :=
    Nat.mul_le_mul_right _ hbelow
  rw [magnitude_eq]
  by_cases hbinade : x.scale = 0 ∨ 2 ^ 52 * (den * 2 ^ x.scale) ≤ scaled
  · rw [Nat.sub_mul, Nat.mul_assoc] at hlow hodd
    rw [Nat.add_mul, Nat.mul_assoc] at hhigh hodd
    refine nearestBits_of_binade hscaled hden x.significand_lt hbinade (by omega) (by omega) ?_
    intro hsignificand
    have := hodd hsignificand
    omega
  · -- The quotient lies below the binade of `x`, so `x` is the power of two above it.
    obtain ⟨hscale, hless⟩ := not_or.1 hbinade
    have hsignificand := (significand_of_scale_pos (Nat.pos_of_ne_zero hscale)).2
    have hlt : 4 * x.significand - below < 2 ^ 54 := by
      refine Nat.lt_of_mul_lt_mul_right (a := den * 2 ^ x.scale) ?_
      omega
    have hfraction : x.fraction = 0 := by omega
    have hquarter := hpower (Nat.pos_of_ne_zero hscale) hfraction
    obtain ⟨scale, hscale⟩ := Nat.exists_eq_succ_of_ne_zero hscale
    rw [hsignificand, hfraction, hquarter] at hlow
    rw [hsignificand, hfraction]
    rw [hscale] at hlow hless ⊢
    exact nearestBits_below_power hscaled hden hlow (Nat.lt_of_not_le hless)

/-! ### The search -/

/-- The quotient that a decimal stands for, in units of `2 ^ -1076`, lies in the
interval. -/
def Holds (r : RoundingInterval) (d : Decimal) : Prop :=
  r.contains (d.num * unitsPerOne) d.den = true

variable {r : RoundingInterval} {tie : Tie}

theorem holds_of_nearestOnGrid? {g : Int} {n : Nat} (h : r.nearestOnGrid? tie g = some n) :
    r.Holds ⟨n, g⟩ := by
  unfold Holds Decimal.num Decimal.den
  dsimp only
  rw [Nat.mul_assoc]
  unfold nearestOnGrid? at h
  dsimp only at h
  generalize Nat.pow 10 g.toNat * unitsPerOne = step at h ⊢
  generalize Nat.pow 10 (-g).toNat = den at h ⊢
  generalize r.value * den / step = lower at h
  split at h
  · contradiction
  · next hlower _ => exact Option.some.inj h ▸ hlower
  · next _ hupper => exact Option.some.inj h ▸ hupper
  · next hlower hupper =>
    have hn : n = lower ∨ n = lower + 1 := by
      split at h
      · exact .inl (Option.some.inj h).symm
      · split at h
        · exact .inr (Option.some.inj h).symm
        · cases tie with
          | up => exact .inr (Option.some.inj h).symm
          | even =>
              have heven := (Option.some.inj h).symm
              split at heven
              · exact .inl heven
              · exact .inr heven
    rcases hn with rfl | rfl
    · exact hlower
    · exact hupper

theorem holds_of_search {count : Nat} {g : Int} {d : Decimal}
    (h : r.search tie count g = some d) : r.Holds d := by
  induction count generalizing g with
  | zero => contradiction
  | succ count ih =>
      rw [search] at h
      split at h
      · next n hn => exact Option.some.inj h ▸ holds_of_nearestOnGrid? hn
      · exact ih h

theorem search_isSome (fine : Int) {count : Nat} {g : Int} (hfine : fine ≤ g)
    (hcount : g - fine < count) (h : (r.nearestOnGrid? tie fine).isSome = true) :
    (r.search tie count g).isSome = true := by
  induction count generalizing g with
  | zero => omega
  | succ count ih =>
      rw [search]
      split
      · rfl
      · next hnone =>
        -- The search found nothing on this grid, so the finest one is still ahead.
        have hne : g ≠ fine := by
          rintro rfl
          rw [hnone] at h
          contradiction
        exact ih (by omega) (by omega)

theorem nearestOnGrid?_isSome {g : Int} {step den : Nat}
    (hstep : Nat.pow 10 g.toNat * unitsPerOne = step) (hden : Nat.pow 10 (-g).toNat = den)
    (h : r.contains (r.value * den / step * step) den = true) :
    (r.nearestOnGrid? tie g).isSome = true := by
  unfold nearestOnGrid?
  dsimp only
  rewrite [hstep, hden]
  split
  · next hlower _ =>
    rw [h] at hlower
    cases hlower
  · rfl
  · rfl
  · split
    · rfl
    · split
      · rfl
      · cases tie <;> rfl

theorem low_lt_value {x : Binary64} (hx : x.magnitude ≠ 0) :
    (ofBinary64 x).low < (ofBinary64 x).value := by
  have hunit : 0 < Nat.pow 2 x.scale := Nat.two_pow_pos x.scale
  have hpos := significand_pos hx
  refine Nat.mul_lt_mul_of_pos_right ?_ hunit
  split <;> omega

theorem value_lt_high (x : Binary64) : (ofBinary64 x).value < (ofBinary64 x).high :=
  Nat.mul_lt_mul_of_pos_right (by omega) (Nat.two_pow_pos x.scale)

/-- On a grid that is finer than the units, the last point up to a number lies in the
interval of the number. -/
theorem contains_of_fine {x : Binary64} (hx : x.magnitude ≠ 0) {step den : Nat}
    (hstep : 0 < step) (hfine : step < den) :
    (ofBinary64 x).contains ((ofBinary64 x).value * den / step * step) den = true := by
  have hlow : ((ofBinary64 x).low + 1) * den ≤ (ofBinary64 x).value * den :=
    Nat.mul_le_mul_right den (low_lt_value hx)
  have hhigh : ((ofBinary64 x).value + 1) * den ≤ (ofBinary64 x).high * den :=
    Nat.mul_le_mul_right den (value_lt_high x)
  have hto := Nat.div_mul_le_self ((ofBinary64 x).value * den) step
  have hfrom := Nat.lt_div_mul_add (a := (ofBinary64 x).value * den) hstep
  rw [Nat.add_mul] at hlow hhigh
  unfold contains
  split
  · rw [Bool.and_eq_true, decide_eq_true_eq, decide_eq_true_eq]
    omega
  · rw [Bool.and_eq_true, decide_eq_true_eq, decide_eq_true_eq]
    omega

theorem search_finds {x : Binary64} (hx : x.magnitude ≠ 0) (tie : Tie) (coarsest : Nat) :
    ((ofBinary64 x).search tie (coarsest + 325) coarsest).isSome = true := by
  have hunits : 0 < unitsPerOne := by decide +kernel
  have hfine : unitsPerOne < Nat.pow 10 (- -324 : Int).toNat := by decide +kernel
  have hstep : Nat.pow 10 (-324 : Int).toNat * unitsPerOne = unitsPerOne := by
    generalize unitsPerOne = units
    exact Nat.one_mul units
  refine search_isSome (-324) (by omega) (by omega) ?_
  exact nearestOnGrid?_isSome hstep rfl (contains_of_fine hx hunits hfine)

end RoundingInterval

/-! ### Reading a decimal back -/

theorem Binary64.nearestBits_zero {den : Nat} (hden : 0 < den) : nearestBits 0 den = 0 := by
  have hscaled : 0 * Nat.pow 2 1074 = 0 := by
    generalize Nat.pow 2 1074 = units
    exact Nat.zero_mul units
  rw [nearestBits_eq 0 hscaled hden (.inl rfl) (by omega),
    roundHalfEven_eq (n := 0) (by omega) (by omega) (by omega) (fun _ => rfl), Nat.zero_mul]

namespace Decimal

def nearest? (d : Decimal) : Option Binary64 :=
  Binary64.ofQuotient? d.num d.den

theorem den_pos (d : Decimal) : 0 < d.den :=
  Nat.pow_pos (by decide)

theorem nearest?_zero (exponent : Int) : nearest? ⟨0, exponent⟩ = some ⟨0⟩ := by
  unfold nearest? num Binary64.ofQuotient?
  dsimp only
  rw [Nat.zero_mul, Binary64.nearestBits_zero (den_pos _), if_pos (by decide +kernel)]
  rfl

theorem nearest?_mul_pow (significand zeros : Nat) (exponent : Int) :
    nearest? ⟨significand * Nat.pow 10 zeros, exponent⟩ =
      nearest? ⟨significand, exponent + zeros⟩ := by
  have hexponents : zeros + exponent.toNat + (-(exponent + zeros)).toNat =
      (exponent + zeros).toNat + (-exponent).toNat := by omega
  unfold nearest? Binary64.ofQuotient?
  dsimp only
  rw [Binary64.nearestBits_congr (den_pos _) (den_pos _)]
  show significand * 10 ^ zeros * 10 ^ exponent.toNat * 10 ^ (-(exponent + zeros)).toNat =
    significand * 10 ^ (exponent + zeros).toNat * 10 ^ (-exponent).toNat
  rw [Nat.mul_assoc, Nat.mul_assoc, Nat.mul_assoc, ← Nat.pow_add, ← Nat.pow_add, ← Nat.pow_add,
    ← Nat.add_assoc, hexponents]

end Decimal

section

variable {x : Binary64} (hfinite : x.isFinite = true) (hx : x.magnitude ≠ 0) (tie : Tie)

include hfinite hx

theorem nearest?_shortest : (shortest tie x).nearest? = some ⟨UInt64.ofNat x.magnitude⟩ := by
  obtain ⟨d, hd⟩ := Option.isSome_iff_exists.1
    (RoundingInterval.search_finds hx tie (RoundingInterval.ofBinary64 x).coarsest)
  have hshortest : shortest tie x = d := by
    unfold shortest
    dsimp only
    rw [hd, Option.getD_some]
  have hbits : Binary64.nearestBits d.num d.den = x.magnitude :=
    RoundingInterval.nearestBits_of_contains hx d.den_pos (RoundingInterval.holds_of_search hd)
  unfold Decimal.nearest? Binary64.ofQuotient?
  dsimp only
  rw [hshortest, hbits, if_pos (of_decide_eq_true hfinite)]

theorem shortest_significand_pos : 0 < (shortest tie x).significand := by
  have hnearest := nearest?_shortest hfinite hx tie
  by_contra hzero
  generalize shortest tie x = d at hnearest hzero
  obtain ⟨significand, exponent⟩ := d
  obtain rfl : significand = 0 := Nat.eq_zero_of_not_pos hzero
  rw [Decimal.nearest?_zero, Option.some.injEq, Binary64.mk.injEq] at hnearest
  have hbits := congrArg UInt64.toNat hnearest
  rw [UInt64.toNat_ofNat_of_lt' x.magnitude_lt] at hbits
  exact hx hbits.symm

end

/-- One tenth, and a tie, which goes up or to the even digit. -/
example : shortest .even ⟨0x3FB999999999999A⟩ = ⟨1, -1⟩ ∧
    shortest .up ⟨0x3E60000000000000⟩ = ⟨29802322387695313, -24⟩ ∧
    shortest .even ⟨0x3E60000000000000⟩ = ⟨29802322387695312, -24⟩ := by
  decide +kernel

end ScriptLexer.Number
