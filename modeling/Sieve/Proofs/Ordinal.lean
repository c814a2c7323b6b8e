import Mathlib.Tactic
import Sieve.Calendar.Date

/-!
# Days and their numbers

Later days have greater numbers, so that no two days share a number.

* `Date.daysBeforeYear_succ`, `Date.daysBeforeMonth_succ`: the lengths of years and months;
* `Date.ordinal_lt`: a day in an earlier year or month, or earlier in the month, has a lower number;
* `Date.ordinal_injective`: the number of a day determines the day.
-/

namespace Sieve.Date

/-- The number of days of a year. -/
def daysInYear (year : ℕ) : ℕ := if isLeap year then 366 else 365

theorem isLeap_eq (year : ℕ) :
    isLeap year = decide (4 ∣ year ∧ (¬ 100 ∣ year ∨ 400 ∣ year)) := by
  rw [Bool.eq_iff_iff]
  simp [isLeap, Nat.dvd_iff_mod_eq_zero]

theorem daysBeforeYear_succ {year : ℕ} (h : 1 ≤ year) :
    daysBeforeYear (year + 1) = daysBeforeYear year + daysInYear year := by
  obtain ⟨y, rfl⟩ := Nat.exists_eq_add_of_le' h
  have hle : y / 100 ≤ y / 4 := Nat.div_le_div_left (by decide) (by decide)
  have hcentury : 100 ∣ y + 1 → 4 ∣ y + 1 := fun hdvd => Dvd.dvd.trans (by decide) hdvd
  have hfour : 400 ∣ y + 1 → 100 ∣ y + 1 := fun hdvd => Dvd.dvd.trans (by decide) hdvd
  simp only [daysBeforeYear, daysInYear, isLeap_eq, Nat.add_sub_cancel, Nat.succ_div]
  generalize y / 4 = fours at *
  generalize y / 100 = centuries at *
  generalize y / 400 = cycles at *
  by_cases h4 : 4 ∣ y + 1
  · by_cases h100 : 100 ∣ y + 1
    · by_cases h400 : 400 ∣ y + 1
      · simp [h4, h100, h400]
        omega
      · simp [h4, h100, h400]
        omega
    · have h400 : ¬ 400 ∣ y + 1 := fun hdvd => h100 (hfour hdvd)
      simp [h4, h100, h400]
      omega
  · have h100 : ¬ 100 ∣ y + 1 := fun hdvd => h4 (hcentury hdvd)
    have h400 : ¬ 400 ∣ y + 1 := fun hdvd => h100 (hfour hdvd)
    simp [h4, h100, h400]
    omega

theorem daysBeforeYear_le {y z : ℕ} (hy : 1 ≤ y) (h : y < z) :
    daysBeforeYear y + daysInYear y ≤ daysBeforeYear z := by
  induction z, h using Nat.le_induction with
  | base => rw [daysBeforeYear_succ hy]
  | succ z hz ih =>
    rw [daysBeforeYear_succ (by omega)]
    omega

theorem daysBeforeMonth_succ (year month : ℕ) :
    daysBeforeMonth year (month + 1) = daysBeforeMonth year month + daysInMonth year month := by
  simp [daysBeforeMonth, List.range_succ]

theorem daysBeforeMonth_le (year : ℕ) {m n : ℕ} (h : m < n) :
    daysBeforeMonth year m + daysInMonth year m ≤ daysBeforeMonth year n := by
  induction n, h using Nat.le_induction with
  | base => rw [daysBeforeMonth_succ]
  | succ n _ ih =>
    rw [daysBeforeMonth_succ]
    omega

/-- All months together make up the year. -/
theorem daysBeforeMonth_end (year : ℕ) : daysBeforeMonth year 13 = daysInYear year := by
  have hmonths : List.range 13 = [0, 1, 2, 3, 4, 5, 6, 7, 8, 9, 10, 11, 12] := rfl
  unfold daysBeforeMonth daysInYear
  rw [hmonths]
  simp only [List.foldl_cons, List.foldl_nil, daysInMonth]
  split <;> rfl

theorem month_lt (d : Date) : d.month < 13 := by
  obtain ⟨_, _, hday, hle⟩ := d.exists_
  by_contra hmonth
  have hnone : daysInMonth d.year d.month = 0 := by
    unfold daysInMonth
    split <;> omega
  omega

/-- The place of a day in its year. -/
theorem day_le (d : Date) : daysBeforeMonth d.year d.month + d.day ≤ daysInYear d.year := by
  have hle := daysBeforeMonth_le d.year d.month_lt
  rw [daysBeforeMonth_end] at hle
  have hday := d.exists_.2.2.2
  omega

/-- **Later days have greater numbers.** -/
theorem ordinal_lt {d e : Date} (h : d.year < e.year ∨ d.year = e.year ∧
    (d.month < e.month ∨ d.month = e.month ∧ d.day < e.day)) : d.ordinal < e.ordinal := by
  unfold ordinal
  rcases h with hyear | ⟨hyear, hmonth | ⟨hmonth, hday⟩⟩
  · have hle := daysBeforeYear_le d.exists_.1 hyear
    have hday := d.day_le
    have hpos := e.exists_.2.2.1
    omega
  · have hle := daysBeforeMonth_le d.year hmonth
    have hday := d.exists_.2.2.2
    have hpos := e.exists_.2.2.1
    rw [← hyear]
    omega
  · rw [← hyear, ← hmonth]
    omega

/-- The number of a day determines the day. -/
theorem ordinal_injective {d e : Date} (h : d.ordinal = e.ordinal) : d = e := by
  have hle : ¬ (d.year < e.year ∨ d.year = e.year ∧
      (d.month < e.month ∨ d.month = e.month ∧ d.day < e.day)) :=
    fun hlt => Nat.ne_of_lt (ordinal_lt hlt) h
  have hge : ¬ (e.year < d.year ∨ e.year = d.year ∧
      (e.month < d.month ∨ e.month = d.month ∧ e.day < d.day)) :=
    fun hlt => Nat.ne_of_lt (ordinal_lt hlt) h.symm
  have hyear : d.year = e.year := by
    rcases Nat.lt_trichotomy d.year e.year with hlt | heq | hgt
    · exact (hle (.inl hlt)).elim
    · exact heq
    · exact (hge (.inl hgt)).elim
  have hmonth : d.month = e.month := by
    rcases Nat.lt_trichotomy d.month e.month with hlt | heq | hgt
    · exact (hle (.inr ⟨hyear, .inl hlt⟩)).elim
    · exact heq
    · exact (hge (.inr ⟨hyear.symm, .inl hgt⟩)).elim
  have hday : d.day = e.day := by
    rcases Nat.lt_trichotomy d.day e.day with hlt | heq | hgt
    · exact (hle (.inr ⟨hyear, .inr ⟨hmonth, hlt⟩⟩)).elim
    · exact heq
    · exact (hge (.inr ⟨hyear.symm, .inr ⟨hmonth.symm, hgt⟩⟩)).elim
  obtain ⟨_, _, _, _⟩ := d
  obtain ⟨_, _, _, _⟩ := e
  simp only at hyear hmonth hday
  subst hyear hmonth hday
  rfl

end Sieve.Date
