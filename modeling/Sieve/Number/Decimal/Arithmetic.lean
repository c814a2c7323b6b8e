import Sieve.Number.Decimal
/-!
# Arithmetic of decimals

The results are the exact ones, rounded to 28 digits, ties to the even digit. The exponent of a sum
is the least one, that of a product the sum of both, where the digits suffice. What is not a number
is handed on, unless it is signalling.

* `rounded` keeps the digits that a result may have;
* `add`, `sub`, `mul` and `div` may be refused, with a `Trap` as reason;
* `ceil?` is the least integer that is not below a decimal.

Main statements: `rounded_of_short` (results of few digits are exact), `add_ofInt`.
-/

namespace Sieve

namespace Decimal

/-- Why a computation is refused. -/
inductive Trap
  /-- There is no result, or an operand is signalling. -/
  | invalid
  /-- The result is too great. -/
  | overflow
  /-- The divisor is zero. -/
  | zeroDivisor
  deriving DecidableEq, Repr, Inhabited

/-! ### Rounding -/

/-- The number of digits of a result. -/
def precision : Nat := 28

/-- The greatest place of the leading digit of a result. -/
def resultPlace : Int := 999999

/-- The least exponent of a result. -/
def resultExponent : Int := -1000026

/-- The coefficient without its last `n` digits, rounded to the nearest one, a tie to the even one. -/
def shortened (c n : Nat) : Nat :=
  if digitCount c < n then 0 else Binary64.roundQuotient c (Nat.pow 10 n)

/-- The finite decimal as a result. -/
def rounded (negative : Bool) (c : Nat) (e : Int) : Except Trap Decimal :=
  if c = 0 then .ok (.finite negative 0 (min (max e resultExponent) resultPlace))
  else
    let unit := max (place c e - (precision - 1)) resultExponent
    let d := if e < unit then shortened c (unit - e).toNat else c
    let f := max e unit
    if resultPlace < place d f then .error .overflow
    -- Rounding up can bring one more digit, which is a zero.
    else if precision < digitCount d then .ok (.finite negative (d / 10) (f + 1))
    else .ok (.finite negative d f)

/-- A number of few digits is a result as it is. -/
theorem rounded_of_short {negative : Bool} {c : Nat} {e : Int} (hc : c ≠ 0)
    (hdigits : digitCount c ≤ precision) (hexponent : resultExponent ≤ e)
    (hplace : place c e ≤ resultPlace) : rounded negative c e = .ok (.finite negative c e) := by
  have hunit : max (place c e - (precision - 1)) resultExponent ≤ e := by
    unfold place
    omega
  simp only [rounded, hc, if_false, Int.not_lt.2 hunit, Int.max_eq_left hunit, Int.not_lt.2 hplace,
    Nat.not_lt.2 hdigits]

/-! ### Operations -/

/-- An operation on numbers for all decimals: the first one that is not a number is handed on, with
the last digits of its payload. -/
def onNumbers (op : Decimal → Decimal → Except Trap Decimal) (x y : Decimal) : Except Trap Decimal :=
  if x.isSignaling || y.isSignaling then .error .invalid
  else
    match x, y with
    | nan negative _ payload, _ => .ok (nan negative false (payload % Nat.pow 10 precision))
    | _, nan negative _ payload => .ok (nan negative false (payload % Nat.pow 10 precision))
    | x, y => op x y

/-- The decimal with the opposite sign. -/
def neg : Decimal → Decimal
  | finite n c e => finite (!n) c e
  | infinite n => infinite (!n)
  | nan n signaling payload => nan (!n) signaling payload

/-- The sum of two finite decimals, of which the first has no lower exponent. -/
def addAligned (m : Bool) (c : Nat) (e : Int) (n : Bool) (d : Nat) (f : Int) : Except Trap Decimal :=
  if c = 0 then rounded (if d = 0 then m && n else n) d f
  else
    -- Below this exponent the digits of the second summand only matter as more than nothing.
    let least := e + min (-1) ((digitCount c : Int) - precision - 2)
    let (d, f) := if place d f < least then (min d 1, least) else (d, f)
    let sum := Numeral.signed m (c * Power.ten (e - f)) + Numeral.signed n d
    rounded (sum < 0) sum.natAbs f

/-- The sum of two numbers. -/
def addNumbers : Decimal → Decimal → Except Trap Decimal
  | finite m c e, finite n d f => if e < f then addAligned n d f m c e else addAligned m c e n d f
  | infinite m, infinite n => if m = n then .ok (infinite m) else .error .invalid
  | infinite m, _ => .ok (infinite m)
  | _, y => .ok y

/-- The product of two numbers. -/
def mulNumbers : Decimal → Decimal → Except Trap Decimal
  | finite m c e, finite n d f => rounded (m != n) (c * d) (e + f)
  | infinite m, infinite n => .ok (infinite (m != n))
  | infinite m, finite n d _ => if d = 0 then .error .invalid else .ok (infinite (m != n))
  | finite m c _, infinite n => if c = 0 then .error .invalid else .ok (infinite (m != n))
  | x, _ => .ok x

/-- The quotient of two numbers, with as many digits as a result may have. -/
def divNumbers : Decimal → Decimal → Except Trap Decimal
  | finite m c e, finite n d f =>
    if d = 0 then .error (if c = 0 then .invalid else .zeroDivisor)
    else if c = 0 then rounded (m != n) 0 (e - f)
    else
      let shift : Int := (digitCount d : Int) - digitCount c + precision + 1
      let num := c * Power.ten shift
      let den := d * Power.ten (-shift)
      -- A remainder must not be taken for a tie.
      let q := if num % den ≠ 0 ∧ num / den % 5 = 0 then num / den + 1 else num / den
      rounded (m != n) q (e - f - shift)
  | infinite _, infinite _ => .error .invalid
  | infinite m, finite n .. => .ok (infinite (m != n))
  | finite m .., infinite n => .ok (finite (m != n) 0 resultExponent)
  | x, _ => .ok x

/-- The sum of two decimals. -/
def add : Decimal → Decimal → Except Trap Decimal := onNumbers addNumbers

/-- The difference of two decimals. -/
def sub : Decimal → Decimal → Except Trap Decimal := onNumbers fun x y => addNumbers x y.neg

/-- The product of two decimals. -/
def mul : Decimal → Decimal → Except Trap Decimal := onNumbers mulNumbers

/-- The quotient of two decimals. -/
def div : Decimal → Decimal → Except Trap Decimal := onNumbers divNumbers

/-- The least integer that is not below a finite decimal. -/
def ceil? : Decimal → Option Int
  | finite negative c e =>
    if e + digitCount c ≤ 0 then some (if c = 0 ∨ negative then 0 else 1)
    else
      let num := c * Power.ten e
      let den := Power.ten (-e)
      some (if negative then -(num / den : Nat) else (num + den - 1) / den)
  | _ => none

/-- An integer of few digits is a result as it is. -/
theorem rounded_ofInt {i : Int} (h : digitCount i.natAbs ≤ precision) :
    rounded (i < 0) i.natAbs 0 = .ok (ofInt i) := by
  by_cases hi : i = 0
  · subst hi
    rfl
  · refine rounded_of_short (by omega) h (by decide) ?_
    have hplace : place i.natAbs 0 < precision := by
      unfold place
      omega
    exact Int.le_trans (Int.le_of_lt hplace) (by decide)

/-- **Integers are added exactly**, up to a sum of 28 digits. -/
theorem add_ofInt {i j : Int} (h : digitCount (i + j).natAbs ≤ precision) :
    add (ofInt i) (ofInt j) = .ok (ofInt (i + j)) := by
  have hsigned : ∀ k : Int, Numeral.signed (k < 0) k.natAbs = k := by
    intro k
    unfold Numeral.signed
    by_cases hk : k < 0
    · rw [decide_eq_true hk, if_pos rfl]
      omega
    · rw [decide_eq_false hk, if_neg Bool.false_ne_true]
      omega
  have hplace : ¬place j.natAbs 0 < 0 + min (-1) ((digitCount i.natAbs : Int) - precision - 2) := by
    unfold place
    omega
  show addAligned (i < 0) i.natAbs 0 (j < 0) j.natAbs 0 = _
  unfold addAligned
  by_cases hi : i = 0
  · subst hi
    rw [Int.zero_add j] at h ⊢
    rw [← rounded_ofInt h]
    by_cases hj : j = 0
    · subst hj
      rfl
    · simp [hj]
  · have hten : Power.ten (0 - 0) = 1 := rfl
    simp only [Int.natAbs_eq_zero, hi, if_false, hplace, hten, Nat.mul_one, hsigned]
    exact rounded_ofInt h

example : add (.finite false 1 (-1)) (.finite false 2 0) = .ok (.finite false 21 (-1)) := rfl

end Decimal

end Sieve
