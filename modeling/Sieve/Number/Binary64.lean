import Sieve.Number.Numeral
import Sieve.Number.Power
/-!
# Doubles

A double is a sign and a magnitude `significand · 2 ^ exponent`, an infinity, or not a number.
Finite doubles are kept in the form that `ofRatio` produces: the significand is below `2 ^ 53`, and
it is at least `2 ^ 52` unless the exponent is the least one.

* `ofRatio` rounds a quotient of natural numbers to the nearest double, a tie to the even one;
* `ofInt?`, `ofScientific`, `read?` produce doubles from integers and from text;
* `shortest` finds the fewest decimal digits that read back as the same double, and `text` writes
  them.

Main statement: `ofRatio_zero`.
-/

namespace Sieve

/-- A double: IEEE 754, 64 bits, without the payload of NaNs. -/
inductive Binary64
  /-- The number `± significand · 2 ^ exponent`. -/
  | finite (negative : Bool) (significand : Nat) (exponent : Int)
  /-- An infinity. -/
  | infinite (negative : Bool)
  /-- Not a number. -/
  | nan
  deriving DecidableEq, Repr, Inhabited

namespace Binary64

/-- The least exponent of a finite double. -/
def minExponent : Int := -1074

/-- The greatest exponent of a finite double. -/
def maxExponent : Int := 971

/-- The number of bits of a significand. -/
def precision : Nat := 53

/-- Zero with the given sign. -/
def zero (negative : Bool) : Binary64 :=
  .finite negative 0 minExponent

/-- The quotient `num / den` rounded to the nearest integer, a tie to the even neighbour. -/
def roundQuotient (num den : Nat) : Nat :=
  let q := num / den
  let r := num % den
  if 2 * r < den then q
  else if den < 2 * r then q + 1
  else if q % 2 = 0 then q else q + 1

/-- The exponent at which `num / den` has a significand of full precision, not below the least. -/
def exponentOf (num den : Nat) : Int :=
  let k : Int := num.log2 - den.log2
  let below := if 0 ≤ k then num < den * Power.two k else num * Power.two (-k) < den
  max ((if below then k - 1 else k) - (precision - 1 : Nat)) minExponent

/-- The double with the given sign and significand, infinite if out of range. A significand of
`2 ^ 53` moves to the next exponent. -/
def pack (negative : Bool) (significand : Nat) (exponent : Int) : Binary64 :=
  let (s, e) := if significand = Power.two precision then (Power.two (precision - 1), exponent + 1)
    else (significand, exponent)
  if maxExponent < e then .infinite negative else .finite negative s e

/-- The double nearest to `± num / den`; of two equally near ones the even one. -/
def ofRatio (negative : Bool) (num den : Nat) : Binary64 :=
  if num = 0 then zero negative
  else
    let e := exponentOf num den
    pack negative (roundQuotient (num * Power.two (-e)) (den * Power.two e)) e

@[simp] theorem ofRatio_zero (negative : Bool) (den : Nat) :
    ofRatio negative 0 den = zero negative := by
  simp [ofRatio]

/-- The double nearest to an integer, unless that is out of range. -/
def ofInt? (i : Int) : Option Binary64 :=
  match ofRatio (i < 0) i.natAbs 1 with
  | .infinite _ => none
  | x => some x

/-- The double nearest to a number in scientific form. Sizes far out of range are settled by the
place of the leading digit. -/
def ofScientific (x : Numeral.Scientific) : Binary64 :=
  let place : Int := x.exponent + (Numeral.digitsOf x.coefficient).length
  if x.coefficient = 0 ∨ place < -340 then zero x.negative
  else if 320 < place then .infinite x.negative
  else ofRatio x.negative (x.coefficient * Power.ten x.exponent) (Power.ten (-x.exponent))

/-- The double that a plain numeral writes: a number in scientific form, `inf`, `infinity` or
`nan` in any case. -/
def ofNumeral? (s : List Char) : Option Binary64 :=
  let (negative, r) := Numeral.sign s
  if Numeral.isWord "inf" r || Numeral.isWord "infinity" r then some (.infinite negative)
  else if Numeral.isWord "nan" r then some .nan
  else (Numeral.Scientific.ofUnsigned? negative r).map ofScientific

/-- The double that a typed-in text writes. -/
def read? (s : String) : Option Binary64 := do
  let t ← Numeral.ungroup? false (Numeral.plain (Text.trim Text.isSpacing s.toList))
  ofNumeral? t

/-- The integer that a finite double is, if it is one. -/
def toInt? : Binary64 → Option Int
  | .finite negative s e =>
    if 0 ≤ e then some (Numeral.signed negative (s * Power.two e))
    else if s % Power.two (-e) = 0 then some (Numeral.signed negative (s / Power.two (-e)))
    else none
  | _ => none

/-- Whether the double is zero, of either sign. -/
def isZero : Binary64 → Bool
  | .finite _ s _ => s == 0
  | _ => false

/-- The integer that is left of a finite double without its fraction. -/
def truncate? : Binary64 → Option Int
  | .finite negative s e => some (Numeral.signed negative (s * Power.two e / Power.two (-e)))
  | _ => none

/-- The least integer that is not below a finite double. -/
def ceil? : Binary64 → Option Int
  | .finite negative s e =>
    if 0 ≤ e then some (Numeral.signed negative (s * Power.two e))
    else
      let d := Power.two (-e)
      some (if negative then -((s / d : Nat) : Int) else ((s + d - 1) / d : Nat))
  | _ => none

/-! ### Shortest text -/

/-- The digits of a positive decimal number `0.d₁d₂… · 10 ^ point`. -/
structure Digits where
  /-- The digits, the first and the last not zero. -/
  digits : List Char
  /-- The number of digits in front of the decimal point; it may be zero or negative. -/
  point : Int
  deriving Repr

/-- The number `n` of `count` digits that ends at `point`, without its final zeros. -/
def Digits.ofGrid (n : Nat) (count : Nat) (point : Int) : Digits :=
  let ds := Numeral.digitsOf n
  let kept := (ds.reverse.dropWhile (· == '0')).reverse
  ⟨kept, point + ((ds.length : Int) - count)⟩

/-- The number of digits in front of the decimal point of `num / den`: the least `p` with
`num / den < 10 ^ p`, found by search from the estimate `p`. -/
def pointOf (num den : Nat) : Nat → Int → Int
  | 0, p => p
  | fuel + 1, p =>
    if num * Power.ten (-p) ≥ den * Power.ten p then pointOf num den fuel (p + 1)
    else if num * Power.ten (-(p - 1)) < den * Power.ten (p - 1) then pointOf num den fuel (p - 1)
    else p

/-- The numbers that round to a double: `num / den` with the half-gaps to its neighbours, all over
the same denominator. The ends belong to the interval when the significand is even. -/
structure Interval where
  /-- The numerator of the double. -/
  num : Nat
  /-- The common denominator. -/
  den : Nat
  /-- The numerator of half the gap to the double below. -/
  below : Nat
  /-- The numerator of half the gap to the double above. -/
  above : Nat
  /-- Whether the ends round to the double as well. -/
  closed : Bool

/-- The numbers that round to `s · 2 ^ e`. The gap below a power of two is half the gap above. -/
def Interval.ofFinite (s : Nat) (e : Int) : Interval :=
  let up := Power.two e
  let narrow := s = Power.two (precision - 1) ∧ minExponent < e
  ⟨4 * s * up, 4 * Power.two (-e), if narrow then up else 2 * up, 2 * up, s % 2 = 0⟩

/-- Whether `n · 10 ^ unit` rounds to the double of the interval. -/
def Interval.covers (i : Interval) (n : Nat) (unit : Int) : Bool :=
  let x := n * Power.ten unit * i.den
  let scale := Power.ten (-unit)
  let v := i.num * scale
  let (gap, half) := if x ≤ v then (v - x, i.below * scale) else (x - v, i.above * scale)
  gap < half || (i.closed && gap == half)

/-- The multiple of `10 ^ unit` nearest to the double that rounds to it, if one of its two
neighbours does. A tie goes to the even one. -/
def Interval.onGrid? (i : Interval) (unit : Int) : Option Nat :=
  let num := i.num * Power.ten (-unit)
  let den := i.den * Power.ten unit
  let near := roundQuotient num den
  let low := num / den
  let far := if near = low then low + 1 else low
  if near ≠ 0 && i.covers near unit then some near
  else if far ≠ 0 && i.covers far unit then some far
  else none

/-- The fewest digits, from `count` on, that read back as the double of the interval. -/
def Interval.shortest (i : Interval) (point : Int) : Nat → Nat → Digits
  | 0, count => .ofGrid (roundQuotient (i.num * Power.ten (count - point))
      (i.den * Power.ten (point - count))) count point
  | fuel + 1, count =>
    match i.onGrid? (point - count) with
    | some n => .ofGrid n count point
    | none => i.shortest point fuel (count + 1)

/-- The fewest decimal digits that read back as the positive double `s · 2 ^ e`. -/
def shortest (s : Nat) (e : Int) : Digits :=
  let i := Interval.ofFinite s e
  let estimate : Int := ((i.num.log2 : Int) - i.den.log2) * 30103 / 100000
  i.shortest (pointOf i.num i.den 8 estimate) 16 1

/-- The digits with a decimal point in its place; a whole number keeps `.0`. -/
def Digits.positional (d : Digits) : List Char :=
  if d.point ≤ 0 then '0' :: '.' :: (List.replicate (-d.point).toNat '0' ++ d.digits)
  else
    let n := d.point.toNat
    if d.digits.length ≤ n then
      d.digits ++ List.replicate (n - d.digits.length) '0' ++ ['.', '0']
    else d.digits.take n ++ '.' :: d.digits.drop n

/-- The digits with one digit in front of the point and an exponent of at least two digits. -/
def Digits.exponential (d : Digits) : List Char :=
  let e := d.point - 1
  let ds := Numeral.digitsOf e.natAbs
  let mantissa := match d.digits with
    | [] => ['0']
    | [c] => [c]
    | c :: r => c :: '.' :: r
  mantissa ++ 'e' :: (if e < 0 then '-' else '+') :: (if ds.length < 2 then '0' :: ds else ds)

/-- The digits of a positive double are written positionally from `10 ^ -4` up to `10 ^ 16`. -/
def Digits.text (d : Digits) : List Char :=
  if -4 < d.point ∧ d.point ≤ 16 then d.positional else d.exponential

/-- The text of a double: the fewest digits that read back. -/
def text : Binary64 → List Char
  | .finite negative s e =>
    let t := if s = 0 then "0.0".toList else (shortest s e).text
    if negative then '-' :: t else t
  | .infinite negative => if negative then "-inf".toList else "inf".toList
  | .nan => "nan".toList

end Binary64

end Sieve
