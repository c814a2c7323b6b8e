import Sieve.Proofs.Number.Rounding
import Sieve.Value.Arithmetic

/-!
# Quotients rounded up

Counts of pages are quotients of natural numbers, which are rounded to the nearest double and then up
to an integer. As long as the last part is not too small beside all parts, in particular for counts
below `2 ^ 53`, the result is the quotient rounded up, as if there were no doubles in between. It is not
where the quotient is so small that the nearest double is zero, and there is no result where it is so
great that there is no such double.

* `upward`: the quotient of two natural numbers, rounded up; `lastPart`: what is in the last part;
* `Binary64.underflow`: quotients up to one divided by it are rounded to zero;
* `Binary64.overflow`: quotients from it on are rounded to an infinity;
* `Binary64.ceil?_ofRatio`: rounding to a double first does not matter;
* `Binary64.ceil?_ofRatio_tiny`: it does where the double is zero;
* `Binary64.ceil?_ofRatio_eq_none_iff`: quotients without a double;
* `Binary64.le_ceil?_ofRatio`: rounding does not fall below an integer;
* `Binary64.Divides`, `Binary64.RoundedUp`: where doubles do not get in the way, and what is left elsewhere;
* `Value.ceilQuotient_nat`, `Value.ceilQuotient_outcome`: the quotient of two integers that are not
  negative.
-/

namespace Sieve

/-- The quotient of two natural numbers, rounded up. -/
def upward (n d : ℕ) : ℕ := (n + d - 1) / d

theorem upward_mul (q : ℕ) {d : ℕ} (hd : 0 < d) : upward (q * d) d = q := by
  rw [upward, show q * d + d - 1 = d - 1 + q * d by omega, Nat.add_mul_div_right _ _ hd,
    Nat.div_eq_of_lt (by omega), zero_add]

/-- As many parts as are needed to cover all. -/
theorem le_upward_mul (n : ℕ) {d : ℕ} (hd : 0 < d) : n ≤ upward n d * d := by
  have hmod := Nat.div_add_mod (n + d - 1) d
  have hlt := Nat.mod_lt (n + d - 1) hd
  rw [Nat.mul_comm] at hmod
  show n ≤ (n + d - 1) / d * d
  omega

theorem upward_mul_lt (n : ℕ) {d : ℕ} (hd : 0 < d) : upward n d * d < n + d := by
  have hle := Nat.div_mul_le_self (n + d - 1) d
  show (n + d - 1) / d * d < n + d
  omega

/-- One part less does not cover all. -/
theorem lt_upward_iff {q n d : ℕ} (hd : 0 < d) : q < upward n d ↔ q * d < n := by
  rw [upward, ← Nat.succ_le_iff, Nat.le_div_iff_mul_le hd, Nat.succ_mul]
  omega

theorem upward_zero (d : ℕ) : upward 0 d = 0 := by
  rcases Nat.eq_zero_or_pos d with rfl | hd
  · rfl
  · exact Nat.div_eq_of_lt (by omega)

theorem upward_pos {n d : ℕ} (hd : 0 < d) (hn : 0 < n) : 0 < upward n d :=
  (lt_upward_iff hd).2 (by omega)

/-- A greater number has no fewer parts. -/
theorem upward_mono {m n : ℕ} (d : ℕ) (h : m ≤ n) : upward m d ≤ upward n d :=
  Nat.div_le_div_right (by omega)

/-- What is left for the last part when a number is divided into full parts. -/
def lastPart (n d : ℕ) : ℕ := n - (upward n d - 1) * d

/-- All parts but the last one are full. -/
theorem exists_lastPart {n d : ℕ} (hd : 0 < d) (hn : 0 < n) :
    ∃ c, upward n d = c + 1 ∧ n = c * d + lastPart n d ∧ 0 < lastPart n d ∧ lastPart n d ≤ d := by
  obtain ⟨c, hc⟩ := Nat.exists_eq_succ_of_ne_zero (upward_pos hd hn).ne'
  have hbelow : c * d < n := (lt_upward_iff hd).1 (by omega)
  have hcover := le_upward_mul n hd
  have hlast : lastPart n d = n - c * d := by
    rw [lastPart, hc, Nat.succ_sub_one]
  rw [hc, Nat.succ_mul] at hcover
  exact ⟨c, hc, by omega, by omega, by omega⟩

/-- The rational number that lies above a quotient by less than one. -/
theorem ceil_div_eq_upward (n : ℕ) {d : ℕ} (hd : 0 < d) : ⌈(n : ℚ) / d⌉ = upward n d := by
  have hpos : (0 : ℚ) < d := by exact_mod_cast hd
  rw [Int.ceil_eq_iff]
  constructor
  · rw [lt_div_iff₀ hpos]
    rcases Nat.eq_zero_or_pos (upward n d) with hzero | hup
    · rw [hzero]
      have hn : (0 : ℚ) ≤ n := Nat.cast_nonneg n
      push_cast
      linarith
    · have hlt := (lt_upward_iff hd).1 (Nat.sub_lt hup Nat.one_pos : upward n d - 1 < upward n d)
      have hcast : (((upward n d - 1) * d : ℕ) : ℚ) < n := by exact_mod_cast hlt
      rw [Nat.cast_mul, Nat.cast_sub hup] at hcast
      exact_mod_cast hcast
  · rw [div_le_iff₀ hpos]
    exact_mod_cast le_upward_mul n hd

namespace Binary64

/-- The least integer that is not below a double. -/
theorem ceil?_finite (s : ℕ) (e : ℤ) : (finite false s e).ceil? = some ⌈(s : ℚ) * 2 ^ e⌉ := by
  have hscale := Power.two_div_two e
  simp only [ceil?]
  by_cases he : 0 ≤ e
  · rw [Power.two_of_nonpos (e := -e) (by omega), Nat.cast_one, div_one] at hscale
    rw [if_pos he, ← hscale, ← Nat.cast_mul, Int.ceil_natCast]
    rfl
  · rw [Power.two_of_nonpos (e := e) (by omega), Nat.cast_one, one_div] at hscale
    rw [if_neg he, ← hscale, ← div_eq_mul_inv, ceil_div_eq_upward s (Power.two_pos (-e))]
    rfl

/-- Packing a significand keeps what it stands for, also where it moves to the next exponent. -/
theorem ceil?_pack {n : ℕ} {e : ℤ} (hn : n ≤ 2 ^ 53) (he : e + 1 ≤ maxExponent) :
    (pack false n e).ceil? = some ⌈(n : ℚ) * 2 ^ e⌉ := by
  rcases hn.lt_or_eq with hlt | rfl
  · rw [pack_eq hlt (by omega), ceil?_finite]
  · rw [pack_carry he, ceil?_finite, zpow_add_one₀ two_ne_zero]
    congr 2
    push_cast
    ring

theorem two_le_two_zpow {e : ℤ} (he : 0 < e) : (2 : ℚ) ≤ 2 ^ e := by
  calc (2 : ℚ) = 2 ^ (1 : ℤ) := (zpow_one 2).symm
    _ ≤ 2 ^ e := zpow_le_zpow_right₀ one_le_two he

/-- A quotient comes to fewer than `2 ^ 53` units of the last place of its exponent, and to at least
`2 ^ 52`, unless these are the least units. -/
theorem exponentOf_fits {t s : ℕ} (ht : t ≠ 0) (hs : 0 < s) :
    (t / s : ℚ) / 2 ^ exponentOf t s < 2 ^ 53 ∧
      (2 ^ 52 ≤ (t / s : ℚ) / 2 ^ exponentOf t s ∨ exponentOf t s = minExponent) := by
  obtain ⟨l, hl, hl', he⟩ := exponentOf_spec ht hs
  have hpow : (0 : ℚ) < 2 ^ exponentOf t s := by positivity
  constructor
  · rw [div_lt_iff₀ hpow]
    calc (t : ℚ) / s < 2 ^ (l + 1) := hl'
      _ ≤ 2 ^ (53 + exponentOf t s) := zpow_le_zpow_right₀ one_le_two (by omega)
      _ = 2 ^ 53 * 2 ^ exponentOf t s := zpow_add₀ two_ne_zero 53 _
  · by_cases hfull : minExponent ≤ l - 52
    · refine .inl ((le_div_iff₀ hpow).2 ?_)
      calc (2 : ℚ) ^ 52 * 2 ^ exponentOf t s = 2 ^ (52 + exponentOf t s) :=
            (zpow_add₀ two_ne_zero 52 _).symm
        _ = 2 ^ l := by rw [show 52 + exponentOf t s = l by omega]
        _ ≤ t / s := hl
    · exact .inr (by omega)

/-- For quotients below `2 ^ 53` the units of the last place are fractions of one. -/
theorem exists_units {t s : ℕ} (ht : t ≠ 0) (hs : 0 < s) (hlt : t < 2 ^ 53 * s) :
    ∃ k : ℕ, exponentOf t s = -(k : ℤ) ∧ k ≤ 1074 ∧ (t * 2 ^ k : ℚ) / s < 2 ^ 53 ∧
      (2 ^ 52 * s ≤ t * 2 ^ k ∨ k = 1074) := by
  have hpos : (0 : ℚ) < s := by exact_mod_cast hs
  have hleast : minExponent = -1074 := rfl
  have hlow : minExponent ≤ exponentOf t s := by
    obtain ⟨l, _, _, he⟩ := exponentOf_spec ht hs
    omega
  obtain ⟨hbelow, hfull⟩ := exponentOf_fits ht hs
  generalize exponentOf t s = e at *
  have hfraction : e ≤ 0 := by
    by_contra hgreat
    have hunits := (le_div_iff₀ (by positivity)).1 (hfull.resolve_right (by omega))
    have hstep := two_le_two_zpow (e := e) (by omega)
    have hbound : (t : ℚ) / s < 2 ^ 53 := by
      rw [div_lt_iff₀ hpos]
      exact_mod_cast hlt
    linarith
  obtain ⟨k, hk⟩ := Int.eq_ofNat_of_zero_le (show 0 ≤ -e by omega)
  have hscale : (t / s : ℚ) / 2 ^ e = t * 2 ^ k / s := by
    rw [show e = -(k : ℤ) by omega, zpow_neg, zpow_natCast, div_inv_eq_mul, div_mul_eq_mul_div]
  rw [hscale] at hbelow hfull
  refine ⟨k, by omega, by omega, hbelow, hfull.imp (fun hunits => ?_) fun hleast => by omega⟩
  exact_mod_cast (le_div_iff₀ hpos).1 hunits

/-- A number of units that is rounded stays below the integers that it is not above, and above those
that it exceeds by more than one half. -/
theorem ceil_roundQuotient {num den c k : ℕ} (hden : 0 < den) (hle : num ≤ (c + 1) * 2 ^ k * den)
    (hlt : (2 * (c * 2 ^ k) + 1) * den < 2 * num) :
    ⌈(roundQuotient num den : ℚ) * 2 ^ (-(k : ℤ))⌉ = (c + 1 : ℕ) := by
  have hpos : (0 : ℚ) < den := by exact_mod_cast hden
  obtain ⟨hlow, hhigh⟩ := roundQuotient_bounds num hden
  have hle' : (num : ℚ) / den ≤ ((c + 1) * 2 ^ k : ℕ) := by
    rw [div_le_iff₀ hpos]
    exact_mod_cast hle
  have hlt' : ((c * 2 ^ k : ℕ) : ℚ) + 1 / 2 < num / den := by
    rw [lt_div_iff₀ hpos]
    have hcast : (((2 * (c * 2 ^ k) + 1) * den : ℕ) : ℚ) < (2 * num : ℕ) := by exact_mod_cast hlt
    push_cast at hcast ⊢
    linarith
  have hupper : roundQuotient num den ≤ (c + 1) * 2 ^ k := by
    have : (roundQuotient num den : ℚ) < ((c + 1) * 2 ^ k : ℕ) + 1 := by linarith
    exact Nat.lt_succ_iff.1 (by exact_mod_cast this)
  have hlower : c * 2 ^ k < roundQuotient num den := by
    have : ((c * 2 ^ k : ℕ) : ℚ) < roundQuotient num den := by linarith
    exact_mod_cast this
  rw [zpow_neg, zpow_natCast, ← div_eq_mul_inv, Int.ceil_eq_iff]
  constructor
  · rw [lt_div_iff₀ (by positivity)]
    push_cast
    rw [add_sub_cancel_right]
    exact_mod_cast hlower
  · rw [div_le_iff₀ (by positivity)]
    exact_mod_cast hupper

/-- A quotient that is at most the reciprocal of this number, `2 ^ 1075`, is rounded to zero: it is not
above half of the least unit. -/
def underflow : ℕ := 2 ^ (1 - minExponent).toNat

theorem underflow_eq {k : ℕ} (hk : k = 1074) : underflow = 2 * 2 ^ k := by
  have hleast : minExponent = -1074 := rfl
  rw [underflow, show (1 - minExponent).toNat = k + 1 by omega, Nat.pow_succ']

theorem two_mul_two_pow_le {k : ℕ} (hk : k ≤ 1074) : 2 * 2 ^ k ≤ underflow := by
  have hleast : minExponent = -1074 := rfl
  rw [underflow, ← Nat.pow_succ']
  exact Nat.pow_le_pow_right Nat.two_pos (by omega)

theorem one_lt_underflow : 1 < underflow :=
  lt_of_lt_of_le (by decide) (two_mul_two_pow_le (Nat.zero_le 1074))

-- The number is too large to be computed with.
attribute [irreducible] underflow

/-- **Rounding to a double first does not matter** for the quotient rounded up, as long as the last part
is not lost beside the others and the double is not zero. -/
theorem ceil?_ofRatio {t s : ℕ} (hs : 0 < s) (hlast : t < 2 ^ 53 * lastPart t s)
    (hsmall : s < t * underflow) : (ofRatio false t s).ceil? = some (upward t s : ℤ) := by
  have ht : t ≠ 0 := by
    rintro rfl
    rw [Nat.zero_mul] at hsmall
    exact Nat.not_lt_zero s hsmall
  obtain ⟨c, hc, hparts, hpos, hle⟩ := exists_lastPart hs (Nat.pos_of_ne_zero ht)
  generalize lastPart t s = last at *
  obtain ⟨k, he, _, hunits, hfull⟩ :=
    exists_units ht hs (hlast.trans_le (Nat.mul_le_mul_left _ hle))
  have hpow : 0 < 2 ^ k := Nat.two_pow_pos k
  -- The last part is more than half a unit.
  have hwide : s < 2 * (last * 2 ^ k) := by
    rcases hfull with hfull | hk
    · have hscaled : t * 2 ^ k < 2 ^ 53 * last * 2 ^ k := Nat.mul_lt_mul_of_pos_right hlast hpow
      nlinarith
    · rcases Nat.eq_zero_or_pos c with rfl | hc'
      · rw [underflow_eq hk, hparts] at hsmall
        linarith
      · have hmono : 2 ^ 53 ≤ 2 ^ k := Nat.pow_le_pow_right Nat.two_pos (by omega)
        have hone : s ≤ c * s := Nat.le_mul_of_pos_left s hc'
        have hscaled : 2 ^ 53 * last ≤ 2 ^ k * last := Nat.mul_le_mul_right last hmono
        linarith
  have hround : roundQuotient (t * 2 ^ k) s ≤ 2 ^ 53 := by
    obtain ⟨_, hhigh⟩ := roundQuotient_bounds (t * 2 ^ k) hs
    push_cast at hhigh
    have : (roundQuotient (t * 2 ^ k) s : ℚ) < 2 ^ 53 + 1 := by linarith
    exact Nat.lt_succ_iff.1 (by exact_mod_cast this)
  rw [ofRatio, if_neg ht]
  simp only [he, neg_neg, Power.two_natCast, Power.two_of_nonpos (e := -(k : ℤ)) (by omega),
    Nat.mul_one]
  rw [hc]
  refine (ceil?_pack hround ?_).trans (congrArg some ?_)
  · have hgreatest : maxExponent = 971 := rfl
    omega
  · refine ceil_roundQuotient hs ?_ ?_
    · rw [hparts]
      nlinarith
    · rw [hparts]
      nlinarith

/-- Numbers below `2 ^ 53` are divided as if there were no doubles. -/
theorem lt_mul_lastPart {t s : ℕ} (hs : 0 < s) (ht : 0 < t) (hlt : t < 2 ^ 53) :
    t < 2 ^ 53 * lastPart t s := by
  obtain ⟨_, _, _, hpos, _⟩ := exists_lastPart hs ht
  exact hlt.trans_le (Nat.le_mul_of_pos_right _ hpos)

/-- A quotient of which the nearest double is zero is rounded up to zero. -/
theorem ceil?_ofRatio_tiny {t s : ℕ} (hs : 0 < s) (htiny : t * underflow ≤ s) :
    (ofRatio false t s).ceil? = some 0 := by
  rcases Nat.eq_zero_or_pos t with rfl | hpos
  · rw [ofRatio_zero, zero, ceil?_finite]
    simp
  · have hlt : t < 2 ^ 53 * s := by
      have hle : t ≤ s := (Nat.le_mul_of_pos_right t (Nat.zero_lt_of_lt one_lt_underflow)).trans htiny
      omega
    obtain ⟨k, he, hk, _, _⟩ := exists_units hpos.ne' hs hlt
    have hle : 2 * (t * 2 ^ k) ≤ s := by
      calc 2 * (t * 2 ^ k) = t * (2 * 2 ^ k) := Nat.mul_left_comm _ _ _
        _ ≤ t * underflow := Nat.mul_le_mul_left t (two_mul_two_pow_le hk)
        _ ≤ s := htiny
    -- At most half a unit is rounded to none, the even one of two neighbours.
    have hround : roundQuotient (t * 2 ^ k) s = 0 := by
      have hs' : (0 : ℚ) < s := by exact_mod_cast hs
      refine roundQuotient_eq hs ?_ ?_ fun _ => rfl
      · have hnonneg : (0 : ℚ) ≤ ((t * 2 ^ k : ℕ) : ℚ) / s := by positivity
        push_cast at hnonneg ⊢
        linarith
      · rw [div_le_iff₀ hs']
        have hcast : ((2 * (t * 2 ^ k) : ℕ) : ℚ) ≤ s := by exact_mod_cast hle
        push_cast at hcast ⊢
        linarith
    rw [ofRatio, if_neg hpos.ne']
    simp only [he, neg_neg, Power.two_natCast, Power.two_of_nonpos (e := -(k : ℤ)) (by omega),
      Nat.mul_one]
    refine (congrArg (fun n => (pack false n (-(k : ℤ))).ceil?) hround).trans
      ((ceil?_pack (Nat.zero_le _) ?_).trans (congrArg some ?_))
    · have hgreatest : maxExponent = 971 := rfl
      omega
    · simp

/-! ### Great quotients -/

/-- A quotient that is at least this number, `2 ^ 1024 - 2 ^ 970`, is rounded to an infinity: it is above
the greatest double by at least half a unit. -/
def overflow : ℕ := (2 ^ 54 - 1) * 2 ^ 970

theorem overflow_eq {k : ℕ} (hk : k = 970) : overflow = (2 ^ 54 - 1) * 2 ^ k := by
  rw [hk, overflow]

-- This number is too large as well.
attribute [irreducible] overflow

theorem two_pow_53_lt_overflow : 2 ^ 53 < overflow := by
  obtain ⟨k, hk⟩ : ∃ k, k = 970 := ⟨_, rfl⟩
  rw [overflow_eq hk]
  exact lt_of_lt_of_le (by decide) (Nat.le_mul_of_pos_right (2 ^ 54 - 1) (Nat.two_pow_pos k))

/-- How many units of the last place a number is rounded to: within one half of what it is, an even number
where there are two. There are at least `2 ^ 52` units, or they are the least ones. -/
structure IsRounding (x : ℚ) (q : ℕ) (e : ℤ) : Prop where
  lower : x / 2 ^ e - 1 / 2 ≤ q
  upper : (q : ℚ) ≤ x / 2 ^ e + 1 / 2
  even : ∀ p : ℕ, p % 2 = 0 → (p : ℚ) - 1 / 2 ≤ x / 2 ^ e → x / 2 ^ e ≤ p + 1 / 2 → q = p
  below : x / 2 ^ e < 2 ^ 53
  full : 2 ^ 52 ≤ x / 2 ^ e ∨ e = minExponent

theorem exists_rounding {t s : ℕ} (ht : t ≠ 0) (hs : 0 < s) :
    ∃ (q : ℕ) (e : ℤ), ofRatio false t s = pack false q e ∧ IsRounding (t / s) q e := by
  have hden : 0 < s * Power.two (exponentOf t s) := Nat.mul_pos hs (Power.two_pos _)
  obtain ⟨hbelow, hfull⟩ := exponentOf_fits ht hs
  obtain ⟨hlow, hhigh⟩ := roundQuotient_bounds (t * Power.two (-exponentOf t s)) hden
  rw [scaled_quotient] at hlow hhigh
  refine ⟨_, exponentOf t s, if_neg ht, hlow, hhigh, fun p heven hp hp' => ?_, hbelow, hfull⟩
  rw [← scaled_quotient] at hp hp'
  exact roundQuotient_eq hden hp hp' fun _ => heven

/-- A significand stands for a double unless it is out of range. -/
theorem ceil?_pack_cases {q : ℕ} {e : ℤ} (hq : q ≤ 2 ^ 53) :
    (maxExponent < e ∨ e = maxExponent ∧ q = 2 ^ 53) ∧ (pack false q e).ceil? = none ∨
      (e < maxExponent ∨ e = maxExponent ∧ q < 2 ^ 53) ∧
        (pack false q e).ceil? = some ⌈(q : ℚ) * 2 ^ e⌉ := by
  rcases lt_trichotomy e maxExponent with hlt | rfl | hgt
  · exact .inr ⟨.inl hlt, ceil?_pack hq (by omega)⟩
  · rcases hq.lt_or_eq with hlt | rfl
    · exact .inr ⟨.inr ⟨rfl, hlt⟩, by rw [pack_eq hlt le_rfl, ceil?_finite]⟩
    · exact .inl ⟨.inr ⟨rfl, rfl⟩, rfl⟩
  · have hout : pack false q e = .infinite false := by
      simp only [pack]
      split
      · exact if_pos (by omega)
      · rfl
    exact .inl ⟨.inl hgt, by rw [hout]; rfl⟩

namespace IsRounding

variable {x : ℚ} {q : ℕ} {e : ℤ} (h : IsRounding x q e)
include h

theorem le : q ≤ 2 ^ 53 := by
  have hlt : (q : ℚ) < 2 ^ 53 + 1 := by linarith [h.upper, h.below]
  exact Nat.lt_succ_iff.1 (by exact_mod_cast hlt)

/-- Numbers are out of range from a certain one on. -/
theorem overflows_iff : (maxExponent < e ∨ e = maxExponent ∧ q = 2 ^ 53) ↔ (overflow : ℚ) ≤ x := by
  obtain ⟨k, hk⟩ : ∃ k, k = 970 := ⟨_, rfl⟩
  have hgreatest : maxExponent = k + 1 := by
    rw [hk]
    rfl
  have hpow : (0 : ℚ) < 2 ^ e := by positivity
  have hoverflow : (overflow : ℚ) = (2 ^ 53 - 1 / 2) * 2 ^ maxExponent := by
    rw [overflow_eq hk, hgreatest, zpow_add_one₀ two_ne_zero, zpow_natCast]
    push_cast
    ring
  have hleast : minExponent < maxExponent := by decide
  rw [hoverflow]
  generalize maxExponent = greatest at *
  rcases lt_trichotomy e greatest with hlt | rfl | hgt
  · refine iff_of_false (by omega) (not_le.2 ?_)
    have hstep : (2 : ℚ) ^ e * 2 ≤ 2 ^ greatest := by
      rw [← zpow_add_one₀ two_ne_zero]
      exact zpow_le_zpow_right₀ one_le_two (by omega)
    have hbelow := (div_lt_iff₀ hpow).1 h.below
    nlinarith
  · rw [← le_div_iff₀ hpow, or_iff_right (lt_irrefl _), and_iff_right rfl]
    constructor
    · rintro rfl
      have hupper := h.upper
      push_cast at hupper
      linarith
    · intro hle
      refine h.even (2 ^ 53) (by decide) ?_ ?_
      · push_cast
        exact hle
      · push_cast
        linarith [h.below]
  · refine iff_of_true (.inl hgt) ?_
    have hfull := (le_div_iff₀ hpow).1 (h.full.resolve_right (by omega))
    have hstep : (2 : ℚ) ^ greatest * 2 ≤ 2 ^ e := by
      rw [← zpow_add_one₀ two_ne_zero]
      exact zpow_le_zpow_right₀ one_le_two (by omega)
    have hpos : (0 : ℚ) < 2 ^ greatest := by positivity
    nlinarith

/-- Rounding does not fall below an integer up to `2 ^ 53`. -/
theorem le_mul {k : ℕ} (hk : (k : ℚ) ≤ x) (hk' : k ≤ 2 ^ 53) : (k : ℚ) ≤ q * 2 ^ e := by
  have hpow : (0 : ℚ) < 2 ^ e := by positivity
  rcases le_or_gt e 0 with he | he
  · -- The integer is a number of units itself.
    obtain ⟨i, hi⟩ := Int.eq_ofNat_of_zero_le (show 0 ≤ -e by omega)
    have hunits : x / 2 ^ e = x * 2 ^ i := by
      rw [div_eq_mul_inv, ← zpow_neg, hi, zpow_natCast]
    have hle : k * 2 ^ i ≤ q := by
      have hlow := h.lower
      rw [hunits] at hlow
      have hscaled : (k : ℚ) * 2 ^ i ≤ x * 2 ^ i := by gcongr
      have hlt : ((k * 2 ^ i : ℕ) : ℚ) < (q + 1 : ℕ) := by
        push_cast
        linarith
      exact Nat.lt_succ_iff.1 (by exact_mod_cast hlt)
    have hcast : (k : ℚ) * 2 ^ i ≤ q := by exact_mod_cast hle
    have hunit : (2 : ℚ) ^ i * 2 ^ e = 1 := by
      rw [← zpow_natCast, ← zpow_add₀ two_ne_zero, show (i : ℤ) + e = 0 by omega, zpow_zero]
    calc (k : ℚ) = k * 2 ^ i * 2 ^ e := by rw [mul_assoc, hunit, mul_one]
      _ ≤ q * 2 ^ e := by gcongr
  · -- There are so many units that they exceed the integer.
    have hleast : minExponent < 0 := by decide
    have hfull := h.full.resolve_right (by omega)
    have hq : 2 ^ 52 ≤ q := by
      have hlt : (2 ^ 52 : ℚ) < q + 1 := by linarith [h.lower]
      exact Nat.lt_succ_iff.1 (by exact_mod_cast hlt)
    have hstep := two_le_two_zpow he
    calc (k : ℚ) ≤ 2 ^ 53 := by exact_mod_cast hk'
      _ = 2 ^ 52 * 2 := by norm_num
      _ ≤ q * 2 ^ e := by
        gcongr
        exact_mod_cast hq

end IsRounding

/-- **A quotient has no double** exactly from a certain number on. -/
theorem ceil?_ofRatio_eq_none_iff {t s : ℕ} (hs : 0 < s) :
    (ofRatio false t s).ceil? = none ↔ overflow * s ≤ t := by
  have hpos : (0 : ℚ) < s := by exact_mod_cast hs
  by_cases ht : t = 0
  · rw [ht, ofRatio_zero, zero, ceil?_finite]
    refine iff_of_false (Option.some_ne_none _) (not_le.2 (Nat.mul_pos ?_ hs))
    exact Nat.zero_lt_of_lt two_pow_53_lt_overflow
  · obtain ⟨q, e, hpack, hround⟩ := exists_rounding ht hs
    have hiff := hround.overflows_iff
    rw [le_div_iff₀ hpos] at hiff
    rw [hpack, show overflow * s ≤ t ↔ (overflow : ℚ) * s ≤ t by exact_mod_cast Iff.rfl, ← hiff]
    rcases ceil?_pack_cases (e := e) hround.le with ⟨hout, hnone⟩ | ⟨hin, hsome⟩
    · exact iff_of_true hnone hout
    · rw [hsome]
      exact iff_of_false (Option.some_ne_none _) (by omega)

theorem ofRatio_ne_nan (t : ℕ) {s : ℕ} (hs : 0 < s) : ofRatio false t s ≠ .nan := by
  by_cases ht : t = 0
  · simp [ht, ofRatio_zero, zero]
  · obtain ⟨q, e, hpack, _⟩ := exists_rounding ht hs
    simp only [hpack, pack]
    split_ifs <;> simp

/-- A quotient that is not below an integer is not rounded below it. -/
theorem le_ceil?_ofRatio {t s k : ℕ} {n : ℤ} (hs : 0 < s) (hk : k * s ≤ t) (hk' : k ≤ 2 ^ 53)
    (h : (ofRatio false t s).ceil? = some n) : (k : ℤ) ≤ n := by
  have hpos : (0 : ℚ) < s := by exact_mod_cast hs
  by_cases ht : t = 0
  · rw [ht, ofRatio_zero, zero, ceil?_finite] at h
    have hzero : k = 0 := by
      by_contra hne
      have := Nat.mul_pos (Nat.pos_of_ne_zero hne) hs
      omega
    rw [hzero, ← Option.some.inj h]
    simp
  · obtain ⟨q, e, hpack, hround⟩ := exists_rounding ht hs
    rw [hpack] at h
    rcases ceil?_pack_cases (e := e) hround.le with ⟨_, hnone⟩ | ⟨_, hsome⟩
    · cases h.symm.trans hnone
    · cases h.symm.trans hsome
      have hle : (k : ℚ) ≤ t / s := by
        rw [le_div_iff₀ hpos]
        exact_mod_cast hk
      exact_mod_cast (hround.le_mul hle hk').trans (Int.le_ceil _)

/-- Doubles do not get in the way of a quotient that is rounded up: it is zero, or the last part is not lost
beside the others and the double is not zero. -/
def Divides (t s : ℕ) : Prop :=
  t = 0 ∨ t < 2 ^ 53 * lastPart t s ∧ s < t * underflow

/-- What a quotient is that was rounded to a double and then up. It does not fall below the integers up to
`2 ^ 53` that it is not below, it is exact where doubles do not get in the way, and zero where the double
is. -/
structure RoundedUp (t s n : ℕ) : Prop where
  least : ∀ k, k * s ≤ t → k ≤ 2 ^ 53 → k ≤ n
  exact : Divides t s → n = upward t s
  tiny : t * underflow ≤ s → n = 0

/-- There are at most `2 ^ 53` parts where doubles do not get in the way. -/
theorem Divides.upward_le {t s : ℕ} (hs : 0 < s) (h : Divides t s) : upward t s ≤ 2 ^ 53 := by
  rcases Nat.eq_zero_or_pos t with rfl | hpos
  · rw [upward_zero]
    exact Nat.zero_le _
  · obtain ⟨_, _, _, _, hle⟩ := exists_lastPart hs hpos
    have hlast := (h.resolve_left hpos.ne').1
    rw [← not_lt, lt_upward_iff hs, not_lt]
    exact (hlast.trans_le (Nat.mul_le_mul_left _ hle)).le

/-- A quotient that is no less than one is not too small for doubles. -/
theorem lt_mul_underflow {t s : ℕ} (ht : 0 < t) (hs : s < 2 ^ 53) : s < t * underflow := by
  have hle : 2 * 2 ^ 52 ≤ underflow := two_mul_two_pow_le (by decide)
  have hmul : underflow ≤ t * underflow := Nat.le_mul_of_pos_left _ ht
  omega

/-- Numbers below `2 ^ 53` are divided as if there were no doubles. -/
theorem divides_of_lt {t s : ℕ} (hs : 0 < s) (hs' : s < 2 ^ 53) (ht : t < 2 ^ 53) : Divides t s := by
  rcases Nat.eq_zero_or_pos t with hzero | hpos
  · exact .inl hzero
  · exact .inr ⟨lt_mul_lastPart hs hpos ht, lt_mul_underflow hpos hs'⟩

end Binary64

namespace Value

open Binary64 (overflow underflow RoundedUp)

variable {t s : ℕ}

theorem ceilQuotient_natCast (t : ℕ) (hs : 0 < s) :
    ceilQuotient (.int t) (.int s) = ceiling (.ofRatio false t s) := by
  have hzero : ¬((s : ℤ) = 0) := by omega
  have hsign : (decide ((t : ℤ) < 0) != decide ((s : ℤ) < 0)) = false := by
    rw [decide_eq_false (by omega), decide_eq_false (by omega)]
    rfl
  show (if (s : ℤ) = 0 then _ else ceiling (.ofRatio _ t s)) = _
  rw [if_neg hzero, hsign]

/-- **The quotient of two natural numbers** is out of range, or rounded to a double and then up. -/
theorem ceilQuotient_outcome (t : ℕ) (hs : 0 < s) :
    overflow * s ≤ t ∧ ceilQuotient (.int t) (.int s) = .error .overflow ∨
      t < overflow * s ∧ ∃ n : ℕ, ceilQuotient (.int t) (.int s) = .ok n ∧ RoundedUp t s n := by
  rw [ceilQuotient_natCast t hs, ceiling]
  cases hceil : (Binary64.ofRatio false t s).ceil? with
  | none =>
    refine .inl ⟨(Binary64.ceil?_ofRatio_eq_none_iff hs).1 hceil, ?_⟩
    simp only [if_neg (Binary64.ofRatio_ne_nan t hs)]
  | some n =>
    refine .inr ⟨?_, ?_⟩
    · by_contra hle
      rw [(Binary64.ceil?_ofRatio_eq_none_iff hs).2 (not_lt.1 hle)] at hceil
      cases hceil
    · have hleast : ∀ k, k * s ≤ t → k ≤ 2 ^ 53 → (k : ℤ) ≤ n := fun k hk hk' =>
        Binary64.le_ceil?_ofRatio hs hk hk' hceil
      obtain ⟨m, rfl⟩ := Int.eq_ofNat_of_zero_le (hleast 0 (by omega) (by omega))
      refine ⟨m, rfl, fun k hk hk' => by exact_mod_cast hleast k hk hk', ?_, fun htiny => ?_⟩
      · rintro (rfl | ⟨hlast, hsmall⟩)
        · rw [Binary64.ceil?_ofRatio_tiny hs (by omega)] at hceil
          rw [upward_zero]
          exact_mod_cast (Option.some.inj hceil).symm
        · rw [Binary64.ceil?_ofRatio hs hlast hsmall] at hceil
          exact_mod_cast (Option.some.inj hceil).symm
      · rw [Binary64.ceil?_ofRatio_tiny hs htiny] at hceil
        exact_mod_cast (Option.some.inj hceil).symm

/-- The quotient of a number below `2 ^ 53` is rounded up, unless it is rounded to a double that is
zero. -/
theorem ceilQuotient_nat (hs : 0 < s) (hlt : t < 2 ^ 53) :
    ceilQuotient (.int t) (.int s) = .ok (if s < t * underflow then upward t s else 0 : ℕ) := by
  rw [ceilQuotient_natCast t hs, ceiling]
  by_cases hsmall : s < t * underflow
  · have hpos : 0 < t := Nat.pos_of_ne_zero fun ht => by
      rw [ht, Nat.zero_mul] at hsmall
      exact Nat.not_lt_zero s hsmall
    rw [Binary64.ceil?_ofRatio hs (Binary64.lt_mul_lastPart hs hpos hlt) hsmall, if_pos hsmall]
  · rw [Binary64.ceil?_ofRatio_tiny hs (not_lt.1 hsmall), if_neg hsmall]
    rfl

/-- A multiple of the divisor is divided exactly. -/
theorem ceilQuotient_mul {q s : ℕ} (hs : 0 < s) (hlt : q * s < 2 ^ 53) :
    ceilQuotient (.int (q * s : ℕ)) (.int s) = .ok q := by
  rw [ceilQuotient_nat hs hlt, upward_mul q hs]
  rcases Nat.eq_zero_or_pos q with rfl | hpos
  · simp
  · have hsmall : s < q * s * Binary64.underflow := by
      calc s ≤ q * s := Nat.le_mul_of_pos_left s hpos
        _ < q * s * Binary64.underflow :=
          lt_mul_of_one_lt_right (Nat.mul_pos hpos hs) Binary64.one_lt_underflow
    rw [if_pos hsmall]

end Value

end Sieve
