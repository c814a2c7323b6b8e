import Sieve.Proofs.Number.DecimalOrder
import Sieve.Proofs.Value.TotalOrder

/-!
# Values that are numbers

Integers, truth values, doubles and decimals compare with each other as the numbers that they stand
for. A value that compares with an integer at all is one of them.

* `Value.HasLevel`: what a value stands for as a number;
* `Value.HasLevel.comparesAs`: numbers of any types compare by it;
* `Value.exists_level`: what compares with an integer is a number;
* `Value.AtLeast`: lower bounds of numbers;
* `Value.EludesBounds`: numbers that are neither zero or less nor one or more.
-/

namespace Sieve

namespace Decimal

theorem level_ofInt (i : Int) : (ofInt i).level = toLex (0, (i : ℚ)) := by
  have habs : signed (decide (i < 0)) (size i.natAbs 0) = i := by
    rw [size, zpow_zero, mul_one, signed, Nat.cast_natAbs]
    by_cases hneg : i < 0
    · rw [if_pos (decide_eq_true hneg), abs_of_neg hneg]
      simp
    · rw [if_neg (by simpa using hneg), abs_of_nonneg (by omega)]
  rw [ofInt, level, habs]

theorem level_of_isZero {d : Decimal} (h : d.isZero = true) : d.level = toLex (0, 0) := by
  cases d with
  | finite m c e =>
    have hc : c = 0 := by simpa [isZero] using h
    subst hc
    cases m <;> simp [level, signed, size]
  | _ => cases h

theorem isNan_ofBinary64 {x : Binary64} (h : x ≠ .nan) : (ofBinary64 x).isNan = false := by
  cases x with
  | finite m s e =>
    rw [ofBinary64]
    split
    · rfl
    · split <;> rfl
  | infinite m => rfl
  | nan => exact absurd rfl h

theorem isZero_ofBinary64 {x : Binary64} (h : x.isZero = true) : (ofBinary64 x).isZero = true := by
  cases x with
  | finite m s e =>
    have hs : s = 0 := by simpa [Binary64.isZero] using h
    rw [ofBinary64, if_pos hs]
    rfl
  | _ => cases h

end Decimal

namespace Value

variable {a b v : Value} {l m : ℤ ×ₗ ℚ} {k : Int}

/-- The value is a number, which stands for the level. -/
def HasLevel (v : Value) (l : ℤ ×ₗ ℚ) : Prop :=
  ∃ d, v.number? = some d ∧ d.isNan = false ∧ d.level = l

theorem hasLevel_int (k : Int) : HasLevel (int k) (toLex (0, (k : ℚ))) :=
  ⟨.ofInt k, rfl, rfl, Decimal.level_ofInt k⟩

/-! ### Comparing -/

theorem compare_ofInt (i j : Int) : Decimal.compare (.ofInt i) (.ofInt j) = Ord.compare i j := by
  have hmono : StrictMono fun n : Int => (n : ℚ) := fun _ _ h => Int.cast_lt.2 h
  rw [Decimal.compare_eq_level rfl rfl, Decimal.level_ofInt, Decimal.level_ofInt,
    Decimal.compare_toLex, ← cmp_eq_compare, ← cmp_eq_compare]
  exact hmono.cmp_map_eq i j

/-- Integers, and truth values, are compared without their numbers; the answer is the same. -/
theorem equal_of_number {x y : Decimal} (ha : a.number? = some x) (hb : b.number? = some y) :
    a.equal b = numbersEqual x y := by
  -- Two integers and two truth values have equations of their own; other pairs go by their numbers.
  cases a with
  | int i =>
    cases b with
    | int j =>
      cases ha
      cases hb
      rw [(comparesAs_int i j).equal, numbersEqual, compare_ofInt]
      rfl
    | bool _ | float _ | decimal _ => simp [equal, ha, hb]
    | _ => cases hb
  | bool p =>
    cases b with
    | bool q =>
      cases ha
      cases hb
      cases p <;> cases q <;> rw [numbersEqual, compare_ofInt, equal] <;> rfl
    | int _ | float _ | decimal _ => simp [equal, ha, hb]
    | _ => cases hb
  | float _ | decimal _ =>
    cases b with
    | bool _ | int _ | float _ | decimal _ => simp [equal, ha, hb]
    | _ => cases hb
  | _ => cases ha

theorem precedes_of_number {x y : Decimal} (ha : a.number? = some x) (hb : b.number? = some y)
    (orEqual : Bool) :
    a.precedes orEqual b = numbersOrdered orEqual (a.isDecimal || b.isDecimal) x y := by
  cases a with
  | int i =>
    cases b with
    | int j =>
      cases ha
      cases hb
      rw [precedes_int, numbersOrdered, compare_ofInt]
      cases Ord.compare i j <;> rfl
    | bool _ | float _ | decimal _ => simp [precedes, ha, hb]
    | _ => cases hb
  | bool _ | float _ | decimal _ =>
    cases b with
    | bool _ | int _ | float _ | decimal _ => simp [precedes, ha, hb]
    | _ => cases hb
  | _ => cases ha

/-- **Numbers compare as what they stand for**, whatever their types are. -/
theorem HasLevel.comparesAs (ha : a.HasLevel l) (hb : b.HasLevel m) :
    ComparesAs (Ord.compare l m) a b := by
  obtain ⟨x, hx, hxn, rfl⟩ := ha
  obtain ⟨y, hy, hyn, rfl⟩ := hb
  refine ⟨?_, fun orEqual => ?_⟩
  · rw [equal_of_number hx hy, numbersEqual, hxn, hyn, Decimal.compare_eq_level hxn hyn]
    rfl
  · rw [precedes_of_number hx hy, numbersOrdered, hxn, hyn, Decimal.compare_eq_level hxn hyn]
    cases Ord.compare x.level y.level <;> rfl

theorem HasLevel.precedes_lt (ha : a.HasLevel l) (hb : b.HasLevel m) :
    a.precedes false b = .ok (decide (l < m)) := by
  rw [(ha.comparesAs hb).precedes]
  refine congrArg Except.ok (Bool.eq_iff_iff.2 ?_)
  rw [decide_eq_true_iff, ← compare_lt_iff_lt]
  cases Ord.compare l m <;> simp [ordered]

theorem HasLevel.precedes_le (ha : a.HasLevel l) (hb : b.HasLevel m) :
    a.precedes true b = .ok (decide (l ≤ m)) := by
  rw [(ha.comparesAs hb).precedes]
  refine congrArg Except.ok (Bool.eq_iff_iff.2 ?_)
  rw [decide_eq_true_iff, ← compare_le_iff_le]
  cases Ord.compare l m <;> simp [ordered]

/-- What compares with an integer is a number, unless it is the double that is none. -/
theorem exists_level {orEqual answer : Bool} (h : v.precedes orEqual (int k) = .ok answer)
    (hv : v ≠ .float .nan) : ∃ l, v.HasLevel l := by
  cases v with
  | int i => exact ⟨_, hasLevel_int i⟩
  | bool p => exact ⟨_, .ofInt (if p then 1 else 0), rfl, rfl, rfl⟩
  | float x =>
    exact ⟨_, _, rfl, Decimal.isNan_ofBinary64 fun hx => hv (congrArg _ hx), rfl⟩
  | decimal d =>
    -- A decimal that is no number refuses to be compared.
    refine ⟨d.level, d, rfl, ?_, rfl⟩
    rw [precedes_of_number (b := .int k) rfl rfl, numbersOrdered] at h
    cases hnan : d.isNan with
    | false => rfl
    | true => simp [hnan, isDecimal] at h
  | _ => simp [precedes, number?] at h

/-- A number that counts as false is zero. -/
theorem HasLevel.eq_zero (hv : v.HasLevel l) (h : v.truthy = false) : l = toLex (0, 0) := by
  obtain ⟨d, hd, _, rfl⟩ := hv
  cases v with
  | int i =>
    cases hd
    have hi : i = 0 := by simpa [truthy] using h
    rw [Decimal.level_ofInt, hi, Int.cast_zero]
  | bool p =>
    cases hd
    cases h
    rw [if_neg (by decide), Decimal.level_ofInt, Int.cast_zero]
  | float x =>
    cases hd
    exact Decimal.level_of_isZero (Decimal.isZero_ofBinary64 (by simpa [truthy] using h))
  | decimal d =>
    cases hd
    exact Decimal.level_of_isZero (by simpa [truthy] using h)
  | _ => cases hd

/-! ### Lower bounds -/

/-- The value is a number that is not below the integer. -/
def AtLeast (least : Int) (v : Value) : Prop :=
  precedes true (.int least) v = .ok true

theorem AtLeast.ne_null {least : Int} (h : AtLeast least v) : v ≠ .null := by
  rintro rfl
  simp [AtLeast, precedes, number?] at h

theorem AtLeast.ne_nan {least : Int} (h : AtLeast least v) : v ≠ .float .nan := by
  rintro rfl
  simp [AtLeast, precedes, number?, numbersOrdered, Decimal.ofBinary64, Decimal.isNan, isDecimal] at h

theorem HasLevel.atLeast_iff (hv : v.HasLevel l) :
    AtLeast k v ↔ toLex ((0 : ℤ), (k : ℚ)) ≤ l := by
  rw [AtLeast, (hasLevel_int k).precedes_le hv]
  simp

/-- What is at least an integer is a number. -/
theorem AtLeast.exists_level {least : Int} (h : AtLeast least v) : ∃ l, v.HasLevel l := by
  cases v with
  | int i => exact ⟨_, hasLevel_int i⟩
  | bool p => exact ⟨_, .ofInt (if p then 1 else 0), rfl, rfl, rfl⟩
  | float x =>
    exact ⟨_, _, rfl, Decimal.isNan_ofBinary64 fun hx => h.ne_nan (congrArg _ hx), rfl⟩
  | decimal d =>
    refine ⟨d.level, d, rfl, ?_, rfl⟩
    rw [AtLeast, precedes_of_number (a := .int least) rfl rfl, numbersOrdered] at h
    cases hnan : d.isNan with
    | false => rfl
    | true => simp [hnan, isDecimal] at h
  | _ => simp [AtLeast, precedes, number?] at h

theorem atLeast_self (least : Int) : AtLeast least (int least) :=
  (hasLevel_int least).atLeast_iff.2 le_rfl

/-- The value is the double that is no number, or it is above zero and below one: checks against zero
do not tell it from a positive integer. -/
def EludesBounds (v : Value) : Prop :=
  v = .float .nan ∨ precedes false (.int 0) v = .ok true ∧ precedes false v (.int 1) = .ok true

theorem not_eludesBounds_null : ¬null.EludesBounds := by
  simp [EludesBounds, precedes, number?]

theorem not_eludesBounds_int (k : Int) : ¬(int k).EludesBounds := by
  rintro (⟨⟨⟩⟩ | ⟨hzero, hone⟩)
  rw [(hasLevel_int _).precedes_lt (hasLevel_int _), Except.ok.injEq, decide_eq_true_iff,
    ← compare_lt_iff_lt, Decimal.compare_toLex, compare_lt_iff_lt] at hzero hone
  have hpos : 0 < k := by exact_mod_cast hzero
  have hlt : k < 1 := by exact_mod_cast hone
  omega

/-- What is not in front of zero is at least that. -/
theorem atLeast_zero (hv : v ≠ .float .nan) (h : precedes false v (int 0) = .ok false) :
    AtLeast 0 v := by
  obtain ⟨l, hl⟩ := exists_level h hv
  rw [hl.precedes_lt (hasLevel_int 0)] at h
  rw [hl.atLeast_iff]
  simpa using h

/-- What is above zero is at least one. -/
theorem atLeast_one (hv : ¬v.EludesBounds) (h : precedes true v (int 0) = .ok false) :
    AtLeast 1 v := by
  obtain ⟨l, hl⟩ := exists_level h fun hnan => hv (.inl hnan)
  -- What is above zero is not below one, or it would elude the check.
  have hfraction : ¬_ := fun hbetween => hv (.inr hbetween)
  rw [(hasLevel_int 0).precedes_lt hl, hl.precedes_lt (hasLevel_int 1)] at hfraction
  rw [hl.precedes_le (hasLevel_int 0)] at h
  rw [hl.atLeast_iff]
  simp only [Except.ok.injEq, decide_eq_true_iff, decide_eq_false_iff_not, not_and, not_lt, not_le]
    at h hfraction
  exact hfraction h

theorem AtLeast.not_eludesBounds (h : AtLeast 1 v) : ¬v.EludesBounds := by
  rintro (hnan | ⟨_, hone⟩)
  · exact h.ne_nan hnan
  · obtain ⟨l, hl⟩ := h.exists_level
    rw [hl.precedes_lt (hasLevel_int 1)] at hone
    have hlt : l < toLex ((0 : ℤ), ((1 : Int) : ℚ)) := by simpa using hone
    exact absurd (hl.atLeast_iff.1 h) hlt.not_ge

/-- A number that counts as false equals zero. -/
theorem equal_zero (hv : v ≠ .float .nan) (h : precedes false v (int 0) = .ok false)
    (hfalse : v.truthy = false) : v.equal (int 0) = .ok true := by
  obtain ⟨l, hl⟩ := exists_level h hv
  have hzero := hl.eq_zero hfalse
  subst hzero
  rw [(hl.comparesAs (hasLevel_int 0)).equal, Int.cast_zero, compare_eq_iff_eq.2 rfl]
  rfl

end Value

end Sieve
