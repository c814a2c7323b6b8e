import Sieve.Number.Binary64
import Sieve.Proofs.Number.Digits

/-!
# Rounding to doubles

Which rational numbers a double stands for when numbers are rounded to doubles. A finite double is
nearest to the numbers between the middles of the gaps around it, and to the middles themselves if
its significand is even.

* `Binary64.Canonical`: the significands and exponents of finite doubles;
* `Binary64.Rounds`: the numbers that a double is nearest to;
* `Binary64.exponentOf_eq`, `Binary64.roundQuotient_eq`: the two steps of rounding;
* `Binary64.ofRatio_eq`: rounding gives the nearest double.
-/

namespace Sieve.Binary64

/-! ### Doubles -/

/-- Whether a significand and an exponent are those of a finite double. -/
structure Canonical (s : ℕ) (e : ℤ) : Prop where
  lt : s < 2 ^ 53
  least : minExponent ≤ e
  greatest : e ≤ maxExponent
  full : 2 ^ 52 ≤ s ∨ e = minExponent

instance (s : ℕ) (e : ℤ) : Decidable (Canonical s e) :=
  decidable_of_iff (s < 2 ^ 53 ∧ minExponent ≤ e ∧ e ≤ maxExponent ∧
    (2 ^ 52 ≤ s ∨ e = minExponent))
    ⟨fun ⟨h1, h2, h3, h4⟩ => ⟨h1, h2, h3, h4⟩, fun ⟨h1, h2, h3, h4⟩ => ⟨h1, h2, h3, h4⟩⟩

/-- Half the gap between a double and the one below. -/
def gapBelow (s : ℕ) (e : ℤ) : ℚ :=
  if s = 2 ^ 52 ∧ minExponent < e then 2 ^ e / 4 else 2 ^ e / 2

/-- Whether a number is nearest to the double `s · 2 ^ e`, an even double being preferred. -/
def Rounds (s : ℕ) (e : ℤ) (x : ℚ) : Prop :=
  (s * 2 ^ e - gapBelow s e < x ∧ x < s * 2 ^ e + 2 ^ e / 2) ∨
    (s % 2 = 0 ∧ (x = s * 2 ^ e - gapBelow s e ∨ x = s * 2 ^ e + 2 ^ e / 2))

theorem gapBelow_pos (s : ℕ) (e : ℤ) : 0 < gapBelow s e := by
  unfold gapBelow
  split <;> positivity

theorem gapBelow_le (s : ℕ) (e : ℤ) : gapBelow s e ≤ 2 ^ e / 2 := by
  have : (0 : ℚ) < 2 ^ e := by positivity
  unfold gapBelow
  split <;> linarith

theorem Rounds.lower {s : ℕ} {e : ℤ} {x : ℚ} (h : Rounds s e x) :
    s * 2 ^ e - gapBelow s e ≤ x := by
  have := gapBelow_pos s e
  have : (0 : ℚ) < 2 ^ e := by positivity
  rcases h with h | ⟨-, rfl | rfl⟩ <;> linarith

theorem Rounds.upper {s : ℕ} {e : ℤ} {x : ℚ} (h : Rounds s e x) :
    x ≤ s * 2 ^ e + 2 ^ e / 2 := by
  have := gapBelow_pos s e
  have : (0 : ℚ) < 2 ^ e := by positivity
  rcases h with h | ⟨-, rfl | rfl⟩ <;> linarith

/-! ### The steps of rounding -/

/-- An integer within one half of a quotient, and an even one if exactly one half away, is what the
quotient is rounded to. -/
theorem roundQuotient_eq {num den q : ℕ} (hden : 0 < den) (hlo : (q : ℚ) - 1 / 2 ≤ num / den)
    (hhi : (num : ℚ) / den ≤ q + 1 / 2)
    (heven : (num : ℚ) / den = q - 1 / 2 ∨ (num : ℚ) / den = q + 1 / 2 → q % 2 = 0) :
    roundQuotient num den = q := by
  have hd : (0 : ℚ) < den := by exact_mod_cast hden
  have hlo' : 2 * q * den ≤ 2 * num + den := by
    rw [le_div_iff₀ hd] at hlo
    have : (2 * q * den : ℚ) ≤ 2 * num + den := by linarith
    exact_mod_cast this
  have hhi' : 2 * num ≤ 2 * q * den + den := by
    rw [div_le_iff₀ hd] at hhi
    have : (2 * num : ℚ) ≤ 2 * q * den + den := by linarith
    exact_mod_cast this
  have heven' : 2 * num + den = 2 * q * den ∨ 2 * num = 2 * q * den + den → q % 2 = 0 := by
    intro h
    refine heven (h.imp (fun h => ?_) fun h => ?_)
    · rw [div_eq_iff hd.ne']
      have : (2 * num + den : ℚ) = 2 * q * den := by exact_mod_cast h
      linarith
    · rw [div_eq_iff hd.ne']
      have : (2 * num : ℚ) = 2 * q * den + den := by exact_mod_cast h
      linarith
  have hmod := Nat.div_add_mod num den
  have hlt := Nat.mod_lt num hden
  unfold roundQuotient
  dsimp only
  generalize num / den = a at *
  generalize num % den = r at *
  have hqa : q = a ∨ q = a + 1 := by
    have h1 : 2 * q * den < 2 * (a + 2) * den := by nlinarith
    have h2 : 2 * a * den < 2 * (q + 1) * den := by nlinarith
    have := lt_of_mul_lt_mul_right h1 (Nat.zero_le _)
    have := lt_of_mul_lt_mul_right h2 (Nat.zero_le _)
    omega
  rcases hqa with rfl | rfl
  · have hr : 2 * r ≤ den := by nlinarith
    split_ifs with h1 h2 h3
    · rfl
    · omega
    · rfl
    · exact absurd (heven' (.inr (by nlinarith))) h3
  · have hr : den ≤ 2 * r := by nlinarith
    split_ifs with h1 h2 h3
    · omega
    · rfl
    · have := heven' (.inl (by nlinarith))
      omega
    · rfl

/-- A quotient is rounded by at most one half. -/
theorem roundQuotient_bounds (num : ℕ) {den : ℕ} (hden : 0 < den) :
    (num : ℚ) / den - 1 / 2 ≤ roundQuotient num den ∧
      (roundQuotient num den : ℚ) ≤ num / den + 1 / 2 := by
  have hd : (0 : ℚ) < den := by exact_mod_cast hden
  have hmod : (den * (num / den : ℕ) + (num % den : ℕ) : ℚ) = num := by
    exact_mod_cast Nat.div_add_mod num den
  have hlt := Nat.mod_lt num hden
  have hlt' : ((num % den : ℕ) : ℚ) < den := by exact_mod_cast hlt
  have hq : (num : ℚ) / den = (num / den : ℕ) + ((num % den : ℕ) : ℚ) / den := by
    rw [← hmod]
    field_simp
  have hnonneg : (0 : ℚ) ≤ ((num % den : ℕ) : ℚ) / den := by positivity
  rw [hq]
  unfold roundQuotient
  dsimp only
  generalize num / den = a at *
  generalize num % den = r at *
  have hlow : 2 * r ≤ den → (r : ℚ) / den ≤ 1 / 2 := by
    intro h
    rw [div_le_iff₀ hd]
    have : (2 * r : ℚ) ≤ den := by exact_mod_cast h
    linarith
  have hhigh : den ≤ 2 * r → 1 / 2 ≤ (r : ℚ) / den := by
    intro h
    rw [le_div_iff₀ hd]
    have : (den : ℚ) ≤ 2 * r := by exact_mod_cast h
    linarith
  have hone : (r : ℚ) / den ≤ 1 := by
    rw [div_le_iff₀ hd]
    linarith
  split_ifs with h1 h2 h3
  · have := hlow h1.le
    constructor <;> linarith
  · have := hhigh h2.le
    push_cast
    constructor <;> linarith
  · have := hlow (not_lt.1 h2)
    constructor <;> linarith
  · have := hhigh (not_lt.1 h1)
    push_cast
    constructor <;> linarith

theorem log2_le_and_lt {n : ℕ} (h : n ≠ 0) :
    (2 : ℚ) ^ (n.log2 : ℤ) ≤ n ∧ (n : ℚ) < 2 ^ ((n.log2 : ℤ) + 1) := by
  refine ⟨?_, ?_⟩
  · rw [zpow_natCast]
    exact_mod_cast Nat.log2_self_le h
  · rw [← Nat.cast_succ, zpow_natCast]
    exact_mod_cast Nat.lt_log2_self

/-- A quotient lies around the power of two that the sizes of its parts give. -/
theorem quotient_bounds {num den : ℕ} (hnum : num ≠ 0) (hden : den ≠ 0) :
    (2 : ℚ) ^ ((num.log2 : ℤ) - den.log2 - 1) < num / den ∧
      (num : ℚ) / den < 2 ^ ((num.log2 : ℤ) - den.log2 + 1) := by
  obtain ⟨hn, hn'⟩ := log2_le_and_lt hnum
  obtain ⟨hd, hd'⟩ := log2_le_and_lt hden
  have hpos : (0 : ℚ) < den := by exact_mod_cast Nat.pos_of_ne_zero hden
  refine ⟨?_, ?_⟩
  · rw [lt_div_iff₀ hpos]
    calc (2 : ℚ) ^ ((num.log2 : ℤ) - den.log2 - 1) * den
        < 2 ^ ((num.log2 : ℤ) - den.log2 - 1) * 2 ^ ((den.log2 : ℤ) + 1) := by gcongr
      _ = 2 ^ (num.log2 : ℤ) := by rw [← zpow_add₀ two_ne_zero]; congr 1; ring
      _ ≤ num := hn
  · rw [div_lt_iff₀ hpos]
    calc (num : ℚ) < 2 ^ ((num.log2 : ℤ) + 1) := hn'
      _ = 2 ^ ((num.log2 : ℤ) - den.log2 + 1) * 2 ^ (den.log2 : ℤ) := by
        rw [← zpow_add₀ two_ne_zero]; congr 1; ring
      _ ≤ 2 ^ ((num.log2 : ℤ) - den.log2 + 1) * den := by gcongr

/-- Comparing with a power of two by its numerators. -/
theorem lt_two_iff (num : ℕ) {den : ℕ} (hden : 0 < den) (k : ℤ) :
    (if 0 ≤ k then num < den * Power.two k else num * Power.two (-k) < den) ↔
      (num : ℚ) / den < 2 ^ k := by
  have hd : (0 : ℚ) < den := by exact_mod_cast hden
  rw [div_lt_iff₀ hd, ← Power.two_div_two, div_mul_eq_mul_div,
    lt_div_iff₀ (by exact_mod_cast Power.two_pos (-k))]
  split_ifs with h
  · rw [Power.two_of_nonpos (e := -k) (by omega)]
    rw [← Nat.cast_lt (α := ℚ)]
    push_cast
    rw [mul_one, mul_comm]
  · rw [Power.two_of_nonpos (e := k) (by omega)]
    rw [← Nat.cast_lt (α := ℚ)]
    push_cast
    rw [one_mul]

/-- The exponent at which a quotient has a significand of full precision. -/
theorem exponentOf_spec {num den : ℕ} (hnum : num ≠ 0) (hden : 0 < den) :
    ∃ l : ℤ, (2 : ℚ) ^ l ≤ num / den ∧ (num : ℚ) / den < 2 ^ (l + 1) ∧
      exponentOf num den = max (l - 52) minExponent := by
  obtain ⟨hlo, hhi⟩ := quotient_bounds hnum hden.ne'
  have hiff := lt_two_iff num hden ((num.log2 : ℤ) - den.log2)
  by_cases h : (num : ℚ) / den < 2 ^ ((num.log2 : ℤ) - den.log2)
  · refine ⟨(num.log2 : ℤ) - den.log2 - 1, hlo.le, by simpa using h, ?_⟩
    simp only [exponentOf, hiff, h, if_true]
    rfl
  · refine ⟨(num.log2 : ℤ) - den.log2, not_lt.1 h, hhi, ?_⟩
    simp only [exponentOf, hiff, h, if_false]
    rfl

/-- The exponent of a double is determined by the size of what is rounded. -/
theorem exponentOf_eq {num den : ℕ} {e : ℤ} (hnum : num ≠ 0) (hden : 0 < den)
    (hleast : minExponent ≤ e) (hhi : (num : ℚ) / den < 2 ^ (e + 53))
    (hlo : 2 ^ (e + 52) ≤ (num : ℚ) / den ∨ e = minExponent) : exponentOf num den = e := by
  obtain ⟨l, hl, hl', heq⟩ := exponentOf_spec hnum hden
  have h1 : l < e + 53 := (zpow_lt_zpow_iff_right₀ one_lt_two).1 (hl.trans_lt hhi)
  rw [heq]
  rcases hlo with hlo | rfl
  · have h2 : e + 52 < l + 1 := (zpow_lt_zpow_iff_right₀ one_lt_two).1 (hlo.trans_lt hl')
    omega
  · omega

/-! ### Rounding -/

/-- A quotient over a power of two, as rounding forms it. -/
theorem scaled_quotient (num den : ℕ) (e : ℤ) :
    ((num * Power.two (-e) : ℕ) : ℚ) / ((den * Power.two e : ℕ) : ℚ) = num / den / 2 ^ e := by
  rw [← Power.two_div_two]
  push_cast
  rw [mul_div_mul_comm, div_div_eq_mul_div, mul_div_assoc]

theorem pack_eq {negative : Bool} {s : ℕ} {e : ℤ} (hs : s < 2 ^ 53) (he : e ≤ maxExponent) :
    pack negative s e = .finite negative s e := by
  have hne : ¬ s = Power.two precision := by
    have : Power.two precision = 2 ^ 53 := rfl
    omega
  simp only [pack, if_neg hne, if_neg (not_lt.2 he)]

theorem pack_carry {negative : Bool} {e : ℤ} (he : e + 1 ≤ maxExponent) :
    pack negative (2 ^ 53) e = .finite negative (2 ^ 52) (e + 1) := by
  have h53 : 2 ^ 53 = Power.two precision := rfl
  have h52 : Power.two ((precision : ℤ) - 1) = 2 ^ 52 := rfl
  simp only [pack, if_pos h53, h52, if_neg (not_lt.2 he)]

/-- Rounding a number that is not below the binade of the nearest double. -/
theorem ofRatio_eq_of_le {negative : Bool} {num den s : ℕ} {e : ℤ} (hc : Canonical s e)
    (hnum : num ≠ 0) (hden : 0 < den) (h : Rounds s e (num / den))
    (hlo : 2 ^ (e + 52) ≤ (num : ℚ) / den ∨ e = minExponent) :
    ofRatio negative num den = .finite negative s e := by
  have h2 : (0 : ℚ) < 2 ^ e := by positivity
  have hs : (s : ℚ) + 1 ≤ 2 ^ 53 := by exact_mod_cast hc.lt
  have hgap := gapBelow_le s e
  have hlower := h.lower
  have hupper := h.upper
  have hlt : (num : ℚ) / den < 2 ^ (e + 53) := by
    have : (2 : ℚ) ^ (e + 53) = 2 ^ e * 2 ^ 53 := zpow_add₀ two_ne_zero e 53
    rw [this]
    nlinarith
  have he := exponentOf_eq hnum hden hc.least hlt hlo
  have hq : roundQuotient (num * Power.two (-e)) (den * Power.two e) = s := by
    refine roundQuotient_eq (Nat.mul_pos hden (Power.two_pos e)) ?_ ?_ ?_
    · rw [scaled_quotient, le_div_iff₀ h2]
      linarith
    · rw [scaled_quotient, div_le_iff₀ h2]
      linarith
    · rw [scaled_quotient, div_eq_iff h2.ne', div_eq_iff h2.ne']
      intro hends
      rcases h with h | h
      · rcases hends with hends | hends <;> linarith
      · exact h.1
  rw [ofRatio, if_neg hnum]
  simp only [he, hq]
  exact pack_eq hc.lt hc.greatest

/-- Rounding a number that is below the binade of the nearest double, which is a power of two. -/
theorem ofRatio_eq_of_lt {negative : Bool} {num den s : ℕ} {e : ℤ} (hc : Canonical s e)
    (hnum : num ≠ 0) (hden : 0 < den) (h : Rounds s e (num / den))
    (hlt : (num : ℚ) / den < 2 ^ (e + 52)) (he : e ≠ minExponent) :
    ofRatio negative num den = .finite negative s e := by
  have h2 : (0 : ℚ) < 2 ^ e := by positivity
  have hleast : minExponent < e := lt_of_le_of_ne hc.least (Ne.symm he)
  have hfull : 2 ^ 52 ≤ s := hc.full.resolve_right he
  have hlower := h.lower
  have h52 : (2 : ℚ) ^ (e + 52) = 2 ^ e * 2 ^ 52 := zpow_add₀ two_ne_zero e 52
  have hs : s = 2 ^ 52 := by
    by_contra hne
    have : (2 : ℚ) ^ 52 + 1 ≤ s := by
      exact_mod_cast (by omega : 2 ^ 52 + 1 ≤ s)
    have := gapBelow_le s e
    nlinarith
  subst hs
  rw [gapBelow, if_pos ⟨rfl, hleast⟩] at hlower
  push_cast at hlower
  have hpred : (2 : ℚ) ^ e = 2 ^ (e - 1) * 2 := by
    rw [zpow_sub_one₀ two_ne_zero]
    ring
  have h1 : (0 : ℚ) < 2 ^ (e - 1) := by positivity
  have hexp : exponentOf num den = e - 1 := by
    refine exponentOf_eq hnum hden (by omega) ?_ (.inl ?_)
    · rwa [show e - 1 + 53 = e + 52 by ring]
    · have : (2 : ℚ) ^ (e - 1 + 52) = 2 ^ (e - 1) * 2 ^ 52 := zpow_add₀ two_ne_zero (e - 1) 52
      rw [this]
      rw [hpred] at hlower
      linarith
  have hq : roundQuotient (num * Power.two (-(e - 1))) (den * Power.two (e - 1)) = 2 ^ 53 := by
    refine roundQuotient_eq (Nat.mul_pos hden (Power.two_pos _)) ?_ ?_ fun _ => by norm_num
    · rw [scaled_quotient, le_div_iff₀ h1]
      rw [hpred] at hlower
      push_cast
      linarith
    · rw [scaled_quotient, div_le_iff₀ h1]
      rw [h52, hpred] at hlt
      push_cast
      linarith
  rw [ofRatio, if_neg hnum]
  simp only [hexp, hq]
  rw [pack_carry (by have := hc.greatest; omega), sub_add_cancel]

/-- **Rounding a quotient gives the double that it is nearest to.** -/
theorem ofRatio_eq {negative : Bool} {num den s : ℕ} {e : ℤ} (hc : Canonical s e)
    (hnum : num ≠ 0) (hden : 0 < den) (h : Rounds s e (num / den)) :
    ofRatio negative num den = .finite negative s e := by
  by_cases hlo : 2 ^ (e + 52) ≤ (num : ℚ) / den ∨ e = minExponent
  · exact ofRatio_eq_of_le hc hnum hden h hlo
  · rw [not_or, not_le] at hlo
    exact ofRatio_eq_of_lt hc hnum hden h hlo.1 hlo.2

end Sieve.Binary64
