import Sieve.Number.Binary64
/-!
# Arithmetic of doubles

The results are the exact ones, rounded to the nearest double. A zero sum is negative only if both
terms are; the sign of a product or a quotient is negative if the signs differ.

* `add`, `sub` and `mul` are total; `div?` has no answer for a divisor of zero.

Main statements: `add_nan`, `div?_zero`.
-/

namespace Sieve

namespace Binary64

/-- The double nearest to `± n · 2 ^ e`. -/
def ofScaled (negative : Bool) (n : Nat) (e : Int) : Binary64 :=
  ofRatio negative (n * Power.two e) (Power.two (-e))

/-- The double with the opposite sign. -/
def neg : Binary64 → Binary64
  | finite n s e => finite (!n) s e
  | infinite n => infinite (!n)
  | nan => nan

/-- The sum of two doubles. -/
def add : Binary64 → Binary64 → Binary64
  | nan, _ => nan
  | _, nan => nan
  | infinite m, infinite n => if m = n then infinite m else nan
  | infinite m, finite .. => infinite m
  | finite .., infinite n => infinite n
  | finite m s e, finite n t f =>
    let unit := min e f
    let sum := Numeral.signed m (s * Power.two (e - unit)) + Numeral.signed n (t * Power.two (f - unit))
    if sum = 0 then zero (m && n) else ofScaled (sum < 0) sum.natAbs unit

@[simp] theorem add_nan (x : Binary64) : add x nan = nan := by
  cases x <;> rfl

/-- The difference of two doubles. -/
def sub (x y : Binary64) : Binary64 := add x (neg y)

/-- The product of two doubles; infinity times zero is not a number. -/
def mul : Binary64 → Binary64 → Binary64
  | nan, _ => nan
  | _, nan => nan
  | finite m s e, finite n t f => ofScaled (m != n) (s * t) (e + f)
  | infinite m, infinite n => infinite (m != n)
  | infinite m, finite n s _ => if s = 0 then nan else infinite (m != n)
  | finite m s _, infinite n => if s = 0 then nan else infinite (m != n)

/-- The quotient of two doubles. -/
def div? (x y : Binary64) : Option Binary64 :=
  if y.isZero then none
  else
    match x, y with
    | nan, _ => some nan
    | _, nan => some nan
    | infinite _, infinite _ => some nan
    | infinite m, finite n _ _ => some (infinite (m != n))
    | finite m _ _, infinite n => some (zero (m != n))
    | finite m s e, finite n t f =>
      some (ofRatio (m != n) (s * Power.two (e - f)) (t * Power.two (f - e)))

@[simp] theorem div?_zero (x : Binary64) (negative : Bool) : div? x (zero negative) = none := by
  simp [div?, zero, isZero]

end Binary64

end Sieve
