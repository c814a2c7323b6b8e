import Mathlib.Tactic
import Sieve.Number.Numeral
import Sieve.Number.Power

/-!
# Decimal digits

Facts about the digits of a natural number that readers of numbers rely on, and powers of ten with
integer exponents as rational numbers.

* `digitsOf_ne_nil`, `isDigit_of_mem_digitsOf`, `head_digitsOf`: the form of the digits;
* `pow_le_of_length`, `lt_pow_length`: the number of digits tells the size;
* `ofDigits_append`, `ofDigits_zeros`: how digits add up;
* `takeWhile_digits`: a run of digits ends where another character comes.
-/

namespace Sieve.Numeral

/-! ### The digits of a number -/

theorem digitsOf_ne_nil (n : ℕ) : digitsOf n ≠ [] :=
  Nat.toDigits_ne_nil

theorem length_digitsOf_pos (n : ℕ) : 0 < (digitsOf n).length :=
  Nat.length_toDigits_pos

theorem isDigit_of_mem_digitsOf {n : ℕ} {c : Char} (h : c ∈ digitsOf n) : isDigit c = true :=
  Nat.isDigit_of_mem_toDigits (by decide) le_rfl h

theorem digitsOf_of_lt {n : ℕ} (h : n < 10) : digitsOf n = [n.digitChar] :=
  Nat.toDigits_of_lt_base h

@[simp] theorem digitsOf_zero : digitsOf 0 = ['0'] := rfl

theorem digitsOf_of_le {n : ℕ} (h : 10 ≤ n) :
    digitsOf n = digitsOf (n / 10) ++ [(n % 10).digitChar] :=
  Nat.toDigits_of_base_le (by decide) h

theorem digitChar_ne_zero {n : ℕ} (h : n < 10) (hn : n ≠ 0) : n.digitChar ≠ '0' := by
  interval_cases n <;> simp_all

/-- A positive number does not start with the digit zero. -/
theorem head_digitsOf {n : ℕ} (hn : n ≠ 0) : (digitsOf n).head? ≠ some '0' := by
  induction n using Nat.strong_induction_on with
  | _ n ih =>
    by_cases h : n < 10
    · simpa [digitsOf_of_lt h] using digitChar_ne_zero h hn
    · rw [digitsOf_of_le (by omega), List.head?_append_of_ne_nil _ (digitsOf_ne_nil _)]
      exact ih (n / 10) (by omega) (by omega)

theorem length_digitsOf_le_iff {n k : ℕ} (hk : 0 < k) : (digitsOf n).length ≤ k ↔ n < 10 ^ k :=
  Nat.length_toDigits_le_iff (by decide) hk

theorem lt_pow_length (n : ℕ) : n < 10 ^ (digitsOf n).length :=
  (length_digitsOf_le_iff (length_digitsOf_pos n)).1 le_rfl

theorem pow_le_of_length {n : ℕ} (hn : n ≠ 0) : 10 ^ ((digitsOf n).length - 1) ≤ n := by
  by_contra h
  by_cases h1 : (digitsOf n).length = 1
  · simp [h1] at h
    exact hn h
  · have hpos := length_digitsOf_pos n
    have hlt : n < 10 ^ ((digitsOf n).length - 1) := by omega
    have := (length_digitsOf_le_iff (n := n) (k := (digitsOf n).length - 1) (by omega)).2 hlt
    omega

/-! ### The number of some digits -/

theorem ofDigits_append (ds es : List Char) :
    ofDigits (ds ++ es) = ofDigits ds * 10 ^ es.length + ofDigits es := by
  rw [ofDigits, Nat.ofDigitChars_append, Nat.ofDigitChars_eq_ofDigitChars_zero, mul_comm]
  rfl

@[simp] theorem ofDigits_nil : ofDigits [] = 0 := by
  simp [ofDigits]

@[simp] theorem ofDigits_zeros (k : ℕ) : ofDigits (List.replicate k '0') = 0 := by
  simp [ofDigits]

theorem ofDigits_append_zeros (ds : List Char) (k : ℕ) :
    ofDigits (ds ++ List.replicate k '0') = ofDigits ds * 10 ^ k := by
  simp [ofDigits_append]

theorem ofDigits_zeros_append (k : ℕ) (ds : List Char) :
    ofDigits (List.replicate k '0' ++ ds) = ofDigits ds := by
  simp [ofDigits_append]

@[simp] theorem ofDigits_zero_cons (ds : List Char) : ofDigits ('0' :: ds) = ofDigits ds :=
  ofDigits_zeros_append 1 ds

/-! ### Runs of digits -/

/-- Whether a text does not go on with a digit. -/
def EndsDigits (r : List Char) : Prop := ∀ c ∈ r.head?, isDigit c = false

theorem isDigit_of_mem_zeros {k : ℕ} {c : Char} (h : c ∈ List.replicate k '0') :
    isDigit c = true := by
  rw [List.eq_of_mem_replicate h]
  decide

theorem takeWhile_digits {ds r : List Char} (hds : ∀ c ∈ ds, isDigit c = true)
    (hr : EndsDigits r) : (ds ++ r).takeWhile isDigit = ds := by
  rw [List.takeWhile_append_of_pos hds]
  cases r with
  | nil => simp
  | cons c r => simp [hr c (by simp)]

theorem dropWhile_digits {ds r : List Char} (hds : ∀ c ∈ ds, isDigit c = true)
    (hr : EndsDigits r) : (ds ++ r).dropWhile isDigit = r := by
  rw [List.dropWhile_append_of_pos hds]
  cases r with
  | nil => simp
  | cons c r => simp [hr c (by simp)]

end Sieve.Numeral

namespace Sieve.Power

/-- A power of ten with an integer exponent is the quotient of its two numerators. -/
theorem ten_div_ten (e : ℤ) : (ten e : ℚ) / ten (-e) = 10 ^ e := by
  obtain ⟨n, rfl | rfl⟩ := e.eq_nat_or_neg
  · rw [ten_of_nonpos (e := -(n : ℤ)) (by omega)]
    simp
  · rw [ten_of_nonpos (e := -(n : ℤ)) (by omega)]
    simp

theorem two_div_two (e : ℤ) : (two e : ℚ) / two (-e) = 2 ^ e := by
  obtain ⟨n, rfl | rfl⟩ := e.eq_nat_or_neg
  · rw [two_of_nonpos (e := -(n : ℤ)) (by omega)]
    simp
  · rw [two_of_nonpos (e := -(n : ℤ)) (by omega)]
    simp

theorem ten_pos (e : ℤ) : 0 < ten e := Nat.pow_pos (by decide)

theorem two_pos (e : ℤ) : 0 < two e := Nat.pow_pos (by decide)

end Sieve.Power
