/-!
Rounding a quotient of natural numbers to the nearest integer, a half going to
the even neighbour. The result is within half a unit of the quotient, and it is
even where two integers are equally near.
-/

namespace ScriptLexer.Number

/-- The integer nearest to `num / den`; of two equally near ones, the even one. -/
def roundHalfEven (num den : Nat) : Nat :=
  let low := num / den
  let twice := 2 * (num % den)
  if twice < den then low
  else if den < twice then low + 1
  else if low % 2 = 0 then low
  else low + 1

theorem roundHalfEven_within_half {num den : Nat} (hden : 0 < den) :
    2 * num ≤ (2 * roundHalfEven num den + 1) * den ∧
      2 * roundHalfEven num den * den ≤ 2 * num + den := by
  have hsplit := Nat.div_add_mod num den
  have hlt := Nat.mod_lt num hden
  have hlow : 2 * (num / den) * den = 2 * (den * (num / den)) := by
    rw [Nat.mul_assoc, Nat.mul_comm (num / den) den]
  have hhigh : 2 * (num / den + 1) * den = 2 * (den * (num / den)) + 2 * den := by
    rw [Nat.mul_add, Nat.add_mul, hlow]
  unfold roundHalfEven
  simp only
  split
  · rw [Nat.add_mul, hlow]; omega
  · split
    · rw [Nat.add_mul, hhigh]; omega
    · split
      · rw [Nat.add_mul, hlow]; omega
      · rw [Nat.add_mul, hhigh]; omega

theorem even_roundHalfEven {num den : Nat} (h : 2 * (num % den) = den) :
    roundHalfEven num den % 2 = 0 := by
  unfold roundHalfEven
  simp only [h, Nat.lt_irrefl, if_false]
  split <;> omega

end ScriptLexer.Number
