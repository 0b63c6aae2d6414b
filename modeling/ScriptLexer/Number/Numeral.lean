/-!
Decimal numerals: the digits of a number, and the number that a run of digits
stands for. Reading inverts writing, and leading zeros count for nothing.
-/

namespace ScriptLexer.Number

def valueOfDigits (digits : List Char) : Nat :=
  Nat.ofDigitChars 10 digits 0

def digitsOf (n : Nat) : List Char :=
  Nat.toDigits 10 n

def numeralOf : Int → List Char
  | .ofNat n => digitsOf n
  | .negSucc n => '-' :: digitsOf (n + 1)

theorem valueOfDigits_digitsOf (n : Nat) : valueOfDigits (digitsOf n) = n :=
  Nat.ofDigitChars_toDigits (by decide) (by decide)

theorem isDigit_of_mem_digitsOf {n : Nat} : ∀ c ∈ digitsOf n, c.isDigit = true :=
  fun _ => Nat.isDigit_of_mem_toDigits (by decide) (by decide)

theorem digitsOf_ne_nil (n : Nat) : digitsOf n ≠ [] :=
  Nat.toDigits_ne_nil

@[simp] theorem valueOfDigits_nil : valueOfDigits [] = 0 := by
  simp [valueOfDigits]

theorem valueOfDigits_append (high low : List Char) :
    valueOfDigits (high ++ low) =
      valueOfDigits high * Nat.pow 10 low.length + valueOfDigits low := by
  unfold valueOfDigits
  rw [Nat.pow_eq, Nat.ofDigitChars_append, Nat.ofDigitChars_eq_ofDigitChars_zero, Nat.mul_comm]

theorem valueOfDigits_replicate_zero (n : Nat) (digits : List Char) :
    valueOfDigits (List.replicate n '0' ++ digits) = valueOfDigits digits := by
  rw [valueOfDigits_append, valueOfDigits, Nat.ofDigitChars_replicate_zero]
  simp

end ScriptLexer.Number
