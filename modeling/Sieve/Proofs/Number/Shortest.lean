import Sieve.Proofs.Number.Rounding

/-!
# The shortest digits of a double

The digits that are written for a double stand for a number that rounds to it.

* `Interval.covers_iff`: what is tested of candidates is that they round to the double;
* `le_of_pointOf`: the search for the place of the first digit does not end too high;
* `Digits.value`, `Digits.Proper`: what digits stand for, and that they start properly;
* `shortest_spec`: the digits of a double round to it;
* `ofScientific_eq`: a number in scientific form is read as the double it is nearest to.
-/

namespace Sieve.Binary64

open Numeral

/-! ### Candidates -/

/-- The numbers of an interval, relative to the double. -/
theorem Interval.scaled (s : ℕ) (e : ℤ) (n : ℕ) (unit : ℤ) :
    let i := Interval.ofFinite s e
    let d : ℚ := 4 * Power.two (-e) * Power.ten (-unit)
    ((n * Power.ten unit * i.den : ℕ) : ℚ) = n * 10 ^ unit * d ∧
      ((i.num * Power.ten (-unit) : ℕ) : ℚ) = s * 2 ^ e * d ∧
      ((i.below * Power.ten (-unit) : ℕ) : ℚ) = gapBelow s e * d ∧
      ((i.above * Power.ten (-unit) : ℕ) : ℚ) = 2 ^ e / 2 * d := by
  intro i d
  have h10 : (Power.ten (-unit) : ℚ) ≠ 0 := by exact_mod_cast (Power.ten_pos (-unit)).ne'
  have h2 : (Power.two (-e) : ℚ) ≠ 0 := by exact_mod_cast (Power.two_pos (-e)).ne'
  have hp : Power.two ((precision : ℤ) - 1) = 2 ^ 52 := rfl
  rw [← Power.ten_div_ten unit, gapBelow, ← Power.two_div_two e]
  refine ⟨?_, ?_, ?_, ?_⟩
  · simp only [i, d, Interval.ofFinite]
    push_cast
    field_simp
  · simp only [i, d, Interval.ofFinite]
    push_cast
    field_simp
  · simp only [i, d, Interval.ofFinite, hp]
    split_ifs
    · push_cast
      field_simp
    · push_cast
      field_simp
      ring
  · simp only [i, d, Interval.ofFinite]
    push_cast
    field_simp
    ring

/-- A multiple of a power of ten is covered if it rounds to the double. -/
theorem Interval.covers_iff (s : ℕ) (e : ℤ) (n : ℕ) (unit : ℤ) :
    (Interval.ofFinite s e).covers n unit = true ↔ Rounds s e (n * 10 ^ unit) := by
  obtain ⟨hx, hv, hb, ha⟩ := Interval.scaled s e n unit
  have hd : (0 : ℚ) < 4 * Power.two (-e) * Power.ten (-unit) := by
    have := Power.two_pos (-e)
    have := Power.ten_pos (-unit)
    positivity
  have hgap := gapBelow_pos s e
  have h2 : (0 : ℚ) < 2 ^ e / 2 := by positivity
  have hclosed : (Interval.ofFinite s e).closed = decide (s % 2 = 0) := rfl
  unfold Interval.covers Rounds
  simp only [hclosed]
  generalize n * Power.ten unit * (Interval.ofFinite s e).den = x at *
  generalize (Interval.ofFinite s e).num * Power.ten (-unit) = v at *
  generalize (Interval.ofFinite s e).below * Power.ten (-unit) = b at *
  generalize (Interval.ofFinite s e).above * Power.ten (-unit) = a at *
  generalize (4 * Power.two (-e) * Power.ten (-unit) : ℚ) = d at *
  generalize (n * 10 ^ unit : ℚ) = X at *
  generalize (s * 2 ^ e : ℚ) = V at *
  generalize gapBelow s e = B at *
  generalize (2 ^ e / 2 : ℚ) = A at *
  by_cases h : x ≤ v
  · have hXV : X ≤ V := by
      rw [← mul_le_mul_iff_of_pos_right hd, ← hx, ← hv]
      exact_mod_cast h
    have hlt : v - x < b ↔ V - B < X := by
      rw [← Nat.cast_lt (α := ℚ), Nat.cast_sub h, hx, hv, hb, ← sub_mul,
        mul_lt_mul_iff_of_pos_right hd, sub_lt_comm]
    have heq : v - x = b ↔ X = V - B := by
      rw [← Nat.cast_inj (R := ℚ), Nat.cast_sub h, hx, hv, hb, ← sub_mul,
        mul_left_inj' hd.ne']
      constructor <;> intro h <;> linarith
    simp only [if_pos h, Bool.or_eq_true, Bool.and_eq_true, decide_eq_true_eq, beq_iff_eq, hlt, heq]
    constructor
    · exact Or.imp (fun h => ⟨h, by linarith⟩) fun h => ⟨h.1, .inl h.2⟩
    · refine Or.imp And.left fun h => ⟨h.1, h.2.resolve_right fun h => ?_⟩
      linarith
  · have hXV : V < X := by
      rw [← mul_lt_mul_iff_of_pos_right hd, ← hx, ← hv]
      exact_mod_cast not_le.1 h
    have hle : v ≤ x := (not_le.1 h).le
    have hlt : x - v < a ↔ X < V + A := by
      rw [← Nat.cast_lt (α := ℚ), Nat.cast_sub hle, hx, hv, ha, ← sub_mul,
        mul_lt_mul_iff_of_pos_right hd, sub_lt_iff_lt_add']
    have heq : x - v = a ↔ X = V + A := by
      rw [← Nat.cast_inj (R := ℚ), Nat.cast_sub hle, hx, hv, ha, ← sub_mul,
        mul_left_inj' hd.ne']
      constructor <;> intro h <;> linarith
    simp only [if_neg h, Bool.or_eq_true, Bool.and_eq_true, decide_eq_true_eq, beq_iff_eq, hlt, heq]
    constructor
    · exact Or.imp (fun h => ⟨by linarith, h⟩) fun h => ⟨h.1, .inr h.2⟩
    · refine Or.imp And.right fun h => ⟨h.1, h.2.resolve_left fun h => ?_⟩
      linarith

theorem Interval.rounds_of_onGrid? {s : ℕ} {e unit : ℤ} {n : ℕ}
    (h : (Interval.ofFinite s e).onGrid? unit = some n) : n ≠ 0 ∧ Rounds s e (n * 10 ^ unit) := by
  simp only [Interval.onGrid?] at h
  split_ifs at h with h1 h2 h3 h4
  all_goals
    cases h
    simp only [Bool.and_eq_true, decide_eq_true_eq, Interval.covers_iff] at *
    first | exact h2 | exact h3 | exact h4 | exact h1

/-! ### The place of the first digit -/

/-- The search does not end above the place of the first digit if it starts few enough places above
it. -/
theorem le_of_pointOf {num den : ℕ} (hden : 0 < den) {fuel : ℕ} {p : ℤ}
    (h : (10 : ℚ) ^ (p - fuel - 1) ≤ num / den) :
    (10 : ℚ) ^ (pointOf num den fuel p - 1) ≤ num / den := by
  have hd : (0 : ℚ) < den := by exact_mod_cast hden
  induction fuel generalizing p with
  | zero => simpa [pointOf] using h
  | succ fuel ih =>
    have hge : ∀ q : ℤ, den * Power.ten q ≤ num * Power.ten (-q) ↔ (10 : ℚ) ^ q ≤ num / den := by
      intro q
      have h10 : (0 : ℚ) < Power.ten (-q) := by exact_mod_cast Power.ten_pos (-q)
      rw [le_div_iff₀ hd, ← Power.ten_div_ten, div_mul_eq_mul_div, div_le_iff₀ h10,
        ← Nat.cast_le (α := ℚ)]
      push_cast
      rw [mul_comm (den : ℚ)]
    rw [pointOf]
    split_ifs with hup hdown
    · rw [ge_iff_le, hge] at hup
      refine ih (le_trans ?_ hup)
      exact zpow_le_zpow_right₀ (by norm_num) (by omega)
    · refine ih ?_
      rwa [show p - 1 - (fuel : ℤ) - 1 = p - (fuel + 1 : ℕ) - 1 by push_cast; ring]
    · rw [not_lt, hge] at hdown
      exact hdown

/-- The estimate from the binary size is at most eight places too high. -/
theorem ten_estimate_le {k : ℤ} (hlo : -1075 ≤ k) (hhi : k ≤ 1024) :
    (10 : ℚ) ^ (k * 30103 / 100000 - 9) ≤ 2 ^ (k - 1) := by
  -- three decimal places are about ten binary ones
  have hk := Int.mul_ediv_add_emod k 10
  have hr := Int.emod_lt_of_pos k (by norm_num : (0 : ℤ) < 10)
  have hr' := Int.emod_nonneg k (by norm_num : (10 : ℤ) ≠ 0)
  generalize k / 10 = m at *
  generalize k % 10 = r at *
  have hratio : (1000 / 1024 : ℚ) ^ m ≤ 100 :=
    calc (1000 / 1024 : ℚ) ^ m ≤ (1000 / 1024) ^ (-108 : ℤ) :=
          zpow_le_zpow_right_of_le_one₀ (by norm_num) (by norm_num) (by omega)
      _ ≤ 100 := by norm_num
  have h1024 : (0 : ℚ) < 1024 ^ m := by positivity
  calc (10 : ℚ) ^ (k * 30103 / 100000 - 9) ≤ 10 ^ (3 * m - 6) :=
        zpow_le_zpow_right₀ (by norm_num) (by omega)
    _ = 1024 ^ m * (1000 / 1024) ^ m * 10 ^ (-6 : ℤ) := by
        rw [← mul_zpow, sub_eq_add_neg, zpow_add₀ (by norm_num), zpow_mul]
        norm_num
    _ ≤ 1024 ^ m * 100 * 10 ^ (-6 : ℤ) := by gcongr
    _ ≤ 1024 ^ m * 2 ^ (-1 : ℤ) := by
        rw [mul_assoc]
        gcongr
        norm_num
    _ = 2 ^ (10 * m - 1) := by
        rw [sub_eq_add_neg, zpow_add₀ two_ne_zero, zpow_mul]
        norm_num
    _ ≤ 2 ^ (k - 1) := zpow_le_zpow_right₀ one_le_two (by omega)

theorem Interval.num_div_den (s : ℕ) (e : ℤ) :
    ((Interval.ofFinite s e).num : ℚ) / (Interval.ofFinite s e).den = s * 2 ^ e := by
  have h2 : (Power.two (-e) : ℚ) ≠ 0 := by exact_mod_cast (Power.two_pos (-e)).ne'
  rw [← Power.two_div_two]
  simp only [Interval.ofFinite]
  push_cast
  field_simp

theorem Interval.den_pos (s : ℕ) (e : ℤ) : 0 < (Interval.ofFinite s e).den :=
  Nat.mul_pos (by norm_num) (Power.two_pos (-e))

/-- The sizes of finite doubles. -/
theorem Canonical.size {s : ℕ} {e : ℤ} (hc : Canonical s e) (hs : s ≠ 0) :
    (2 : ℚ) ^ (-1074 : ℤ) ≤ s * 2 ^ e ∧ (s * 2 ^ e : ℚ) < 2 ^ (1024 : ℤ) := by
  have hleast : (-1074 : ℤ) ≤ e := hc.least
  have hgreatest : e ≤ 971 := hc.greatest
  have h1 : (1 : ℚ) ≤ s := by exact_mod_cast Nat.one_le_iff_ne_zero.2 hs
  have h53 : (s : ℚ) < 2 ^ (53 : ℤ) := by exact_mod_cast hc.lt
  refine ⟨?_, ?_⟩
  · calc (2 : ℚ) ^ (-1074 : ℤ) ≤ 2 ^ e := zpow_le_zpow_right₀ one_le_two hleast
      _ = 1 * 2 ^ e := (one_mul _).symm
      _ ≤ s * 2 ^ e := by gcongr
  · calc (s * 2 ^ e : ℚ) < 2 ^ (53 : ℤ) * 2 ^ e := by gcongr
      _ = 2 ^ (53 + e) := (zpow_add₀ two_ne_zero _ _).symm
      _ ≤ 2 ^ (1024 : ℤ) := zpow_le_zpow_right₀ one_le_two (by omega)

/-- The place of the first digit of a double, as found by the search, is not too high. -/
theorem le_of_point {s : ℕ} {e : ℤ} (hc : Canonical s e) (hs : s ≠ 0) :
    let i := Interval.ofFinite s e
    (10 : ℚ) ^ (pointOf i.num i.den 8 (((i.num.log2 : ℤ) - i.den.log2) * 30103 / 100000) - 1) ≤
      s * 2 ^ e := by
  intro i
  have hden : 0 < i.den := Interval.den_pos s e
  have hx : (i.num : ℚ) / i.den = s * 2 ^ e := Interval.num_div_den s e
  obtain ⟨hleast, hgreatest⟩ := hc.size hs
  have hnum : i.num ≠ 0 := by
    intro h
    rw [h] at hx
    have : (0 : ℚ) < 2 ^ (-1074 : ℤ) := by positivity
    simp only [Nat.cast_zero, zero_div] at hx
    linarith
  obtain ⟨hlo, hhi⟩ := quotient_bounds hnum hden.ne'
  rw [hx] at hlo hhi
  have hk : (i.num.log2 : ℤ) - i.den.log2 - 1 < 1024 :=
    (zpow_lt_zpow_iff_right₀ one_lt_two).1 (hlo.trans hgreatest)
  have hk' : -1074 < (i.num.log2 : ℤ) - i.den.log2 + 1 :=
    (zpow_lt_zpow_iff_right₀ one_lt_two).1 (hleast.trans_lt hhi)
  rw [← hx]
  refine le_of_pointOf hden ?_
  rw [hx, show ∀ p : ℤ, p - (8 : ℕ) - 1 = p - 9 by intro p; push_cast; ring]
  exact (ten_estimate_le (by omega) (by omega)).trans hlo.le

/-! ### Digits -/

/-- The number that some digits stand for. -/
def Digits.value (d : Digits) : ℚ :=
  ofDigits d.digits * 10 ^ (d.point - d.digits.length)

/-- Whether the digits are digits, and the first one is not zero. -/
structure Digits.Proper (d : Digits) : Prop where
  nonempty : d.digits ≠ []
  isDigit : ∀ c ∈ d.digits, isDigit c = true
  head : d.digits.head? ≠ some '0'

theorem trailing_zeros (ds : List Char) :
    ∃ k, ds = (ds.reverse.dropWhile (· == '0')).reverse ++ List.replicate k '0' := by
  have hall : ∀ c ∈ ds.reverse.takeWhile (· == '0'), c = '0' := by
    intro c hc
    simpa using List.all_eq_true.1 List.all_takeWhile c hc
  refine ⟨(ds.reverse.takeWhile (· == '0')).length, ?_⟩
  have hzeros := List.eq_replicate_iff.2 ⟨rfl, hall⟩
  calc ds = (ds.reverse.takeWhile (· == '0') ++ ds.reverse.dropWhile (· == '0')).reverse := by
        rw [List.takeWhile_append_dropWhile, List.reverse_reverse]
    _ = (ds.reverse.dropWhile (· == '0')).reverse ++
          (ds.reverse.takeWhile (· == '0')).reverse := List.reverse_append
    _ = _ := by
        conv_lhs => rw [hzeros]
        rw [List.reverse_replicate]

/-- Leaving final zeros out does not change what digits stand for. -/
theorem Digits.value_ofGrid (n count : ℕ) (point : ℤ) :
    (Digits.ofGrid n count point).value = n * 10 ^ (point - count) := by
  obtain ⟨k, hk⟩ := trailing_zeros (digitsOf n)
  have hn := ofDigits_digitsOf n
  have hlen := congrArg List.length hk
  simp only [Digits.value, Digits.ofGrid]
  generalize ((digitsOf n).reverse.dropWhile (· == '0')).reverse = kept at *
  rw [hk, ofDigits_append_zeros] at hn
  rw [List.length_append, List.length_replicate] at hlen
  have hexp : point + (((digitsOf n).length : ℤ) - count) - kept.length = k + (point - count) := by
    omega
  rw [hexp, zpow_add₀ (by norm_num), ← mul_assoc, ← hn]
  push_cast
  rw [zpow_natCast]

theorem Digits.proper_ofGrid {n : ℕ} (hn : n ≠ 0) (count : ℕ) (point : ℤ) :
    (Digits.ofGrid n count point).Proper := by
  obtain ⟨k, hk⟩ := trailing_zeros (digitsOf n)
  have hvalue := ofDigits_digitsOf n
  have hhead := head_digitsOf hn
  have hdigit : ∀ c ∈ digitsOf n, Numeral.isDigit c = true := fun c => isDigit_of_mem_digitsOf
  have hkept : ((digitsOf n).reverse.dropWhile (· == '0')).reverse ≠ [] := by
    intro h
    rw [hk, h, List.nil_append, ofDigits_zeros] at hvalue
    exact hn hvalue.symm
  refine ⟨hkept, ?_, ?_⟩
  · intro c hc
    refine hdigit c ?_
    rw [hk]
    exact List.mem_append_left _ hc
  · rw [hk, List.head?_append_of_ne_nil _ hkept] at hhead
    exact hhead

/-! ### The digits of a double -/

/-- Seventeen digits of a double are enough. -/
theorem rounds_of_seventeen {s : ℕ} {e point : ℤ} (hc : Canonical s e)
    (hpoint : (10 : ℚ) ^ (point - 1) ≤ s * 2 ^ e) :
    let i := Interval.ofFinite s e
    let n := roundQuotient (i.num * Power.ten (17 - point)) (i.den * Power.ten (point - 17))
    n ≠ 0 ∧ Rounds s e (n * 10 ^ (point - 17)) := by
  intro i n
  have h2 : (0 : ℚ) < 2 ^ e := by positivity
  have h10 : (0 : ℚ) < 10 ^ (point - 17) := by positivity
  have hden : 0 < i.den * Power.ten (point - 17) :=
    Nat.mul_pos (Interval.den_pos s e) (Power.ten_pos _)
  have hquot : ((i.num * Power.ten (17 - point) : ℕ) : ℚ) /
      ((i.den * Power.ten (point - 17) : ℕ) : ℚ) = s * 2 ^ e / 10 ^ (point - 17) := by
    rw [← Interval.num_div_den, ← Power.ten_div_ten, neg_sub]
    push_cast
    rw [mul_div_mul_comm, div_div_eq_mul_div, mul_div_assoc]
  obtain ⟨hlo, hhi⟩ := roundQuotient_bounds (i.num * Power.ten (17 - point)) hden
  rw [hquot] at hlo hhi
  change _ ≤ (n : ℚ) at hlo
  change (n : ℚ) ≤ _ at hhi
  -- the last place is at most `10 ^ -16` of the double, hence less than its gaps
  have hunit : (10 : ℚ) ^ (point - 17) * 10 ^ 16 ≤ s * 2 ^ e := by
    refine le_of_eq_of_le ?_ hpoint
    rw [← zpow_natCast, ← zpow_add₀ (by norm_num)]
    congr 1
    push_cast
    ring
  have hlo' : s * 2 ^ e - 10 ^ (point - 17) / 2 ≤ (n : ℚ) * 10 ^ (point - 17) := by
    have := mul_le_mul_of_nonneg_right hlo h10.le
    rw [sub_mul, div_mul_cancel₀ _ h10.ne'] at this
    linarith
  have hhi' : (n : ℚ) * 10 ^ (point - 17) ≤ s * 2 ^ e + 10 ^ (point - 17) / 2 := by
    have := mul_le_mul_of_nonneg_right hhi h10.le
    rw [add_mul, div_mul_cancel₀ _ h10.ne'] at this
    linarith
  have hs53 : (s : ℚ) ≤ 2 ^ 53 := by exact_mod_cast hc.lt.le
  have habove : (10 : ℚ) ^ (point - 17) / 2 < 2 ^ e / 2 := by
    have : (s * 2 ^ e : ℚ) ≤ 2 ^ 53 * 2 ^ e := by gcongr
    norm_num at this hunit ⊢
    linarith
  have hbelow : (10 : ℚ) ^ (point - 17) / 2 < gapBelow s e := by
    unfold gapBelow
    split_ifs with hnarrow
    · rw [hnarrow.1] at hunit
      norm_num at hunit ⊢
      linarith
    · exact habove
  refine ⟨?_, .inl ⟨by linarith, by linarith⟩⟩
  intro hn
  rw [hn, Nat.cast_zero, zero_mul] at hlo'
  norm_num at hunit
  linarith

theorem Interval.shortest_spec {s : ℕ} {e point : ℤ} (hc : Canonical s e)
    (hpoint : (10 : ℚ) ^ (point - 1) ≤ s * 2 ^ e) {fuel count : ℕ} (hfuel : fuel + count = 17) :
    ∃ n k : ℕ, n ≠ 0 ∧ Rounds s e (n * 10 ^ (point - k)) ∧
      (Interval.ofFinite s e).shortest point fuel count = .ofGrid n k point := by
  induction fuel generalizing count with
  | zero =>
    obtain rfl : count = 17 := by omega
    obtain ⟨hn, hround⟩ := rounds_of_seventeen hc hpoint
    exact ⟨_, 17, hn, hround, rfl⟩
  | succ fuel ih =>
    rw [Interval.shortest]
    cases hgrid : (Interval.ofFinite s e).onGrid? (point - count) with
    | none => exact ih (by omega)
    | some n =>
      obtain ⟨hn, hround⟩ := Interval.rounds_of_onGrid? hgrid
      exact ⟨n, count, hn, hround, rfl⟩

/-- **The digits of a positive double round to it.** -/
theorem shortest_spec {s : ℕ} {e : ℤ} (hc : Canonical s e) (hs : s ≠ 0) :
    (shortest s e).Proper ∧ Rounds s e (shortest s e).value := by
  obtain ⟨n, k, hn, hround, heq⟩ :=
    Interval.shortest_spec hc (le_of_point hc hs) (by norm_num : 16 + 1 = 17)
  have : shortest s e = .ofGrid n k _ := heq
  rw [this, Digits.value_ofGrid]
  exact ⟨Digits.proper_ofGrid hn k _, hround⟩

/-! ### Reading digits -/

/-- The places of the digits of a number tell its size. -/
theorem size_of_place {c : ℕ} (hc : c ≠ 0) (e : ℤ) :
    (10 : ℚ) ^ (e + (digitsOf c).length - 1) ≤ c * 10 ^ e ∧
      (c * 10 ^ e : ℚ) < 10 ^ (e + (digitsOf c).length) := by
  have h10 : (0 : ℚ) < 10 ^ e := by positivity
  have hlen := length_digitsOf_pos c
  have hlo : ((10 : ℚ) ^ ((digitsOf c).length - 1)) ≤ c := by exact_mod_cast pow_le_of_length hc
  have hhi : (c : ℚ) < 10 ^ (digitsOf c).length := by exact_mod_cast lt_pow_length c
  refine ⟨?_, ?_⟩
  · rw [add_sub_assoc, zpow_add₀ (by norm_num), mul_comm, ← Nat.cast_pred hlen, zpow_natCast]
    gcongr
  · rw [zpow_add₀ (by norm_num), mul_comm, zpow_natCast]
    gcongr

/-- Thirteen binary places are less than four decimal ones. -/
theorem two_zpow_le_ten_zpow (k : ℕ) : (2 : ℚ) ^ (13 * (k : ℤ)) ≤ 10 ^ (4 * (k : ℤ)) := by
  rw [zpow_mul, zpow_mul, zpow_natCast, zpow_natCast]
  gcongr
  norm_num

/-- What rounds to a double has at most twice and at least half its size. -/
theorem Rounds.size {s : ℕ} {e : ℤ} {x : ℚ} (hs : s ≠ 0) (h : Rounds s e x) :
    s * 2 ^ e ≤ 2 * x ∧ x ≤ 2 * (s * 2 ^ e) := by
  have h1 : (1 : ℚ) ≤ s := by exact_mod_cast Nat.one_le_iff_ne_zero.2 hs
  have h2 : (0 : ℚ) < 2 ^ e := by positivity
  have hlower := h.lower
  have hupper := h.upper
  have hgap := gapBelow_le s e
  constructor <;> nlinarith

/-- **A number in scientific form is read as the double that it is nearest to.** -/
theorem ofScientific_eq {negative : Bool} {s c : ℕ} {e exponent : ℤ} (hcan : Canonical s e)
    (hs : s ≠ 0) (h : Rounds s e (c * 10 ^ exponent)) :
    ofScientific ⟨negative, c, exponent⟩ = .finite negative s e := by
  obtain ⟨hleast, hgreatest⟩ := hcan.size hs
  obtain ⟨hlower, hupper⟩ := h.size hs
  have hpos : (0 : ℚ) < 2 ^ (-1074 : ℤ) := by positivity
  have hc : c ≠ 0 := by
    rintro rfl
    rw [Nat.cast_zero, zero_mul, mul_zero] at hlower
    exact absurd (hpos.trans_le hleast) (not_lt.2 hlower)
  obtain ⟨hplace, hplace'⟩ := size_of_place hc exponent
  have hnotsmall : ¬ exponent + (digitsOf c).length < -340 := by
    intro hlt
    have hten : (10 : ℚ) ^ (-(4 * (83 : ℕ) : ℤ)) ≤ 2 ^ (-(13 * (83 : ℕ) : ℤ)) := by
      rw [zpow_neg, zpow_neg]
      exact inv_anti₀ (by positivity) (two_zpow_le_ten_zpow 83)
    refine absurd ?_ (lt_irrefl (s * 2 ^ e : ℚ))
    calc (s * 2 ^ e : ℚ) ≤ 2 * (c * 10 ^ exponent) := hlower
      _ < 2 * 10 ^ (exponent + (digitsOf c).length) := by gcongr
      _ ≤ 2 * 10 ^ (-(4 * (83 : ℕ) : ℤ)) := by
        gcongr
        · norm_num
        · push_cast
          omega
      _ ≤ 2 * 2 ^ (-(13 * (83 : ℕ) : ℤ)) := by gcongr
      _ = 2 ^ (1 + -(13 * (83 : ℕ) : ℤ)) := by rw [zpow_add₀ two_ne_zero, zpow_one]
      _ ≤ 2 ^ (-1074 : ℤ) := zpow_le_zpow_right₀ one_le_two (by norm_num)
      _ ≤ s * 2 ^ e := hleast
  have hnotlarge : ¬ 320 < exponent + (digitsOf c).length := by
    intro hlt
    refine absurd ?_ (lt_irrefl (c * 10 ^ exponent : ℚ))
    calc (c * 10 ^ exponent : ℚ) ≤ 2 * (s * 2 ^ e) := hupper
      _ < 2 * 2 ^ (1024 : ℤ) := by gcongr
      _ = 2 ^ (1 + 1024 : ℤ) := by rw [zpow_add₀ two_ne_zero, zpow_one]
      _ ≤ 2 ^ (13 * (79 : ℕ) : ℤ) := zpow_le_zpow_right₀ one_le_two (by norm_num)
      _ ≤ 10 ^ (4 * (79 : ℕ) : ℤ) := two_zpow_le_ten_zpow 79
      _ ≤ 10 ^ (exponent + (digitsOf c).length - 1) :=
        zpow_le_zpow_right₀ (by norm_num) (by push_cast; omega)
      _ ≤ c * 10 ^ exponent := hplace
  have hratio : ((c * Power.ten exponent : ℕ) : ℚ) / (Power.ten (-exponent) : ℕ) =
      c * 10 ^ exponent := by
    rw [← Power.ten_div_ten]
    push_cast
    rw [mul_div_assoc]
  simp only [ofScientific, hc, hnotsmall, hnotlarge, or_self, if_false]
  refine ofRatio_eq hcan ?_ (Power.ten_pos _) (by rwa [hratio])
  exact Nat.mul_ne_zero hc (Power.ten_pos exponent).ne'

/-- Whether the double is in the form in which doubles are kept. -/
def IsKept : Binary64 → Prop
  | .finite _ s e => Canonical s e
  | _ => True

instance (x : Binary64) : Decidable x.IsKept := by
  cases x <;> unfold IsKept <;> infer_instance

end Sieve.Binary64
