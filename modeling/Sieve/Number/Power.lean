/-!
# Powers with integer exponents

A power with an integer exponent is a quotient of natural numbers: `10 ^ e` is
`Power.ten e / Power.ten (-e)`, where at least one of the two is `1`.

* `Power.two` and `Power.ten` are the numerators of powers of two and ten.

Main statements: `two_natCast`, `two_of_nonpos`, `ten_natCast`, `ten_of_nonpos`.
-/

namespace Sieve.Power

/-- The numerator of a power of two. -/
def two (e : Int) : Nat := Nat.pow 2 e.toNat

/-- The numerator of a power of ten. -/
def ten (e : Int) : Nat := Nat.pow 10 e.toNat

@[simp] theorem two_natCast (n : Nat) : two n = Nat.pow 2 n := rfl

@[simp] theorem ten_natCast (n : Nat) : ten n = Nat.pow 10 n := rfl

theorem two_of_nonpos {e : Int} (h : e ≤ 0) : two e = 1 := by
  simp [two, Int.toNat_of_nonpos h]

theorem ten_of_nonpos {e : Int} (h : e ≤ 0) : ten e = 1 := by
  simp [ten, Int.toNat_of_nonpos h]

end Sieve.Power
