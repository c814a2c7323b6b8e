import Mathlib.Tactic
import Sieve.Number.Decimal
import Sieve.Proofs.Number.Digits

/-!
# The order of decimals

Decimals are compared by the places of their leading digits, and by digits with aligned exponents
where these agree. This is the order of the numbers that they stand for.

* `Decimal.size`: the size of a finite decimal as a rational number;
* `Decimal.compareSize_eq`: sizes compare as rational numbers;
* `Decimal.level`: the number a decimal stands for, among those and the infinities;
* `Decimal.compare_eq_level`: decimals that are numbers compare as what they stand for.
-/

namespace Sieve.Decimal

/-- The rational number `coefficient · 10 ^ exponent`. -/
def size (c : ℕ) (e : ℤ) : ℚ := c * 10 ^ e

variable {c d : ℕ} {e f : ℤ}

theorem size_pos (hc : c ≠ 0) : 0 < size c e := by
  have hc' : (0 : ℚ) < c := by exact_mod_cast Nat.pos_of_ne_zero hc
  exact mul_pos hc' (by positivity)

/-- The size begins at the place of the leading digit. -/
theorem pow_place_le_size (hc : c ≠ 0) : (10 : ℚ) ^ place c e ≤ size c e := by
  have hlen := Numeral.length_digitsOf_pos c
  have hpow : (10 : ℚ) ^ (digitCount c - 1) ≤ c := by
    exact_mod_cast Numeral.pow_le_of_length hc
  have hplace : place c e = ((digitCount c - 1 : ℕ) : ℤ) + e := by
    unfold place digitCount
    omega
  rw [hplace, zpow_add₀ (by norm_num), zpow_natCast]
  exact mul_le_mul_of_nonneg_right hpow (by positivity)

theorem size_lt_pow_place : size c e < (10 : ℚ) ^ (place c e + 1) := by
  have hpow : (c : ℚ) < 10 ^ digitCount c := by
    exact_mod_cast Numeral.lt_pow_length c
  have hplace : place c e + 1 = (digitCount c : ℤ) + e := by
    unfold place
    omega
  rw [hplace, zpow_add₀ (by norm_num), zpow_natCast]
  exact mul_lt_mul_of_pos_right hpow (by positivity)

/-- The number with the lower leading digit is smaller. -/
theorem size_lt_of_place_lt (hd : d ≠ 0) (h : place c e < place d f) : size c e < size d f :=
  calc size c e
      < (10 : ℚ) ^ (place c e + 1) := size_lt_pow_place
    _ ≤ (10 : ℚ) ^ place d f := zpow_le_zpow_right₀ (by norm_num) (by omega)
    _ ≤ size d f := pow_place_le_size hd

/-- Digits with a lower exponent and zeros behind them. -/
theorem size_align {least : ℤ} (h : least ≤ e) :
    size c e = (c * Power.ten (e - least) : ℕ) * (10 : ℚ) ^ least := by
  have hten : ((Power.ten (e - least) : ℕ) : ℚ) = 10 ^ (e - least) := by
    rw [← Power.ten_div_ten, Power.ten_of_nonpos (e := -(e - least)) (by omega), Nat.cast_one,
      div_one]
  rw [size, Nat.cast_mul, hten, mul_assoc, ← zpow_add₀ (by norm_num), sub_add_cancel]

/-- **Sizes compare as rational numbers.** -/
theorem compareSize_eq (hc : c ≠ 0) (hd : d ≠ 0) :
    compareSize c e d f = Ord.compare (size c e) (size d f) := by
  unfold compareSize
  cases hplace : Ord.compare (place c e) (place d f) with
  | lt => exact (compare_lt_iff_lt.2 (size_lt_of_place_lt hd (compare_lt_iff_lt.1 hplace))).symm
  | gt => exact (compare_gt_iff_gt.2 (size_lt_of_place_lt hc (compare_gt_iff_gt.1 hplace))).symm
  | eq =>
    have hleft := size_align (c := c) (min_le_left e f)
    have hright := size_align (c := d) (min_le_right e f)
    rw [hleft, hright]
    have hpos : (0 : ℚ) < 10 ^ min e f := by positivity
    have hmono : StrictMono fun n : ℕ => (n : ℚ) * 10 ^ min e f := fun a b hab =>
      mul_lt_mul_of_pos_right (by exact_mod_cast hab) hpos
    dsimp only
    rw [← cmp_eq_compare, ← cmp_eq_compare]
    exact (hmono.cmp_map_eq _ _).symm

/-- The number with a sign. -/
def signed (m : Bool) (q : ℚ) : ℚ := if m then -q else q

/-- What a decimal stands for; infinities lie beyond the numbers on both sides. -/
def level : Decimal → ℤ ×ₗ ℚ
  | .finite m c e => toLex (0, signed m (size c e))
  | .infinite m => toLex (if m then -1 else 1, 0)
  | .nan .. => toLex (0, 0)

theorem compare_toLex (x y : ℚ) :
    Ord.compare (toLex ((0 : ℤ), x)) (toLex ((0 : ℤ), y)) = Ord.compare x y := by
  have hmono : StrictMono fun q : ℚ => toLex ((0 : ℤ), q) := fun a b hab =>
    Prod.Lex.toLex_lt_toLex.2 (.inr ⟨rfl, hab⟩)
  rw [← cmp_eq_compare, ← cmp_eq_compare]
  exact hmono.cmp_map_eq x y

theorem compare_finite (m n : Bool) :
    compare (.finite m c e) (.finite n d f) =
      Ord.compare (signed m (size c e)) (signed n (size d f)) := by
  have hzero : ∀ g, size 0 g = 0 := by simp [size]
  by_cases hc : c = 0
  · subst hc
    by_cases hd : d = 0
    · subst hd
      simp [compare, hzero, signed]
    · have hpos := size_pos (e := f) hd
      cases n
      · have hlt : signed m (size 0 e) < signed false (size d f) := by simpa [signed, hzero]
        simp [compare, hd, compare_lt_iff_lt.2 hlt]
      · have hlt : signed true (size d f) < signed m (size 0 e) := by simpa [signed, hzero]
        simp [compare, hd, compare_gt_iff_gt.2 hlt]
  · have hcpos := size_pos (e := e) hc
    by_cases hd : d = 0
    · subst hd
      cases m
      · have hlt : signed n (size 0 f) < signed false (size c e) := by simpa [signed, hzero]
        simp [compare, hc, compare_gt_iff_gt.2 hlt]
      · have hlt : signed true (size c e) < signed n (size 0 f) := by simpa [signed, hzero]
        simp [compare, hc, compare_lt_iff_lt.2 hlt]
    · have hdpos := size_pos (e := f) hd
      -- Numbers of one sign compare by size, negative ones the other way round.
      cases m <;> cases n
      · simp [compare, hc, hd, compareSize_eq hc hd, signed]
      · have hlt : signed true (size d f) < signed false (size c e) := by
          simp only [signed]
          simp
          linarith
        simp [compare, hc, hd, compare_gt_iff_gt.2 hlt]
      · have hlt : signed true (size c e) < signed false (size d f) := by
          simp only [signed]
          simp
          linarith
        simp [compare, hc, hd, compare_lt_iff_lt.2 hlt]
      · have hanti : StrictAnti fun q : ℚ => -q := fun a b hab => neg_lt_neg hab
        have hneg : Ord.compare (-size c e) (-size d f) = Ord.compare (size d f) (size c e) := by
          rw [← cmp_eq_compare, ← cmp_eq_compare]
          exact hanti.cmp_map_eq _ _
        simp [compare, hc, hd, compareSize_eq hd hc, signed, hneg]

/-- **Decimals that are numbers compare as what they stand for.** -/
theorem compare_eq_level {a b : Decimal} (ha : a.isNan = false) (hb : b.isNan = false) :
    compare a b = Ord.compare a.level b.level := by
  have hbelow : ∀ (x : ℚ) (i j : ℤ) (y : ℚ), i < j →
      Ord.compare (toLex (i, x)) (toLex (j, y)) = .lt := fun x i j y h =>
    compare_lt_iff_lt.2 (Prod.Lex.toLex_lt_toLex.2 (.inl h))
  have habove : ∀ (x : ℚ) (i j : ℤ) (y : ℚ), j < i →
      Ord.compare (toLex (i, x)) (toLex (j, y)) = .gt := fun x i j y h =>
    compare_gt_iff_gt.2 (Prod.Lex.toLex_lt_toLex.2 (.inl h))
  cases a with
  | nan => cases ha
  | finite m c e =>
    cases b with
    | nan => cases hb
    | finite n d f =>
      rw [compare_finite, level, level, compare_toLex]
    | infinite n =>
      cases n
      · simp [compare, level, hbelow]
      · simp [compare, level, habove]
  | infinite m =>
    cases b with
    | nan => cases hb
    | finite n d f =>
      cases m
      · simp [compare, level, habove]
      · simp [compare, level, hbelow]
    | infinite n =>
      cases m <;> cases n
      · simp [compare, level]
      · simp [compare, level, habove]
        rfl
      · simp [compare, level, hbelow]
        rfl
      · simp [compare, level]

end Sieve.Decimal
