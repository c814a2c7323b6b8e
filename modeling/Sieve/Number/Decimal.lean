import Sieve.Number.Binary64
/-!
# Decimals

Decimal numbers that keep their exponent, so that `1.5` and `1.50` are different decimals of equal
value. A decimal is finite, infinite, or not a number; one that is not a number may be signalling
and may carry a payload.

* `read?` reads a decimal exactly and refuses what its bounds cannot hold, `text` writes it;
* `ofInt` and `ofBinary64` are exact; `compare` orders numbers by value, by the place of the
  leading digit first, so that far apart exponents are not expanded.

Main statement: `compare_zero` (a zero equals zeros only).
-/

namespace Sieve

/-- A decimal number with sign, digits and exponent. -/
inductive Decimal
  /-- The number `± coefficient · 10 ^ exponent`. -/
  | finite (negative : Bool) (coefficient : Nat) (exponent : Int)
  /-- An infinity. -/
  | infinite (negative : Bool)
  /-- Not a number, with a payload; `0` stands for none. -/
  | nan (negative signaling : Bool) (payload : Nat)
  deriving DecidableEq, Repr, Inhabited

namespace Decimal

/-- The greatest place of a leading digit, and the negative of the least one. -/
def maxPlace : Int := 999999999999999999

/-- The least exponent. -/
def minExponent : Int := -1999999999999999997

/-- The number of digits of the coefficient. -/
def digitCount (coefficient : Nat) : Nat :=
  (Numeral.digitsOf coefficient).length

/-- The exponent of the leading digit. -/
def place (coefficient : Nat) (exponent : Int) : Int :=
  exponent + digitCount coefficient - 1

/-- A finite decimal, unless the bounds exclude it. -/
def bounded? (negative : Bool) (coefficient : Nat) (exponent : Int) : Option Decimal :=
  if maxPlace < place coefficient exponent ∨ exponent < minExponent then none
  else some (.finite negative coefficient exponent)

/-- The payload in front of which `nan` stands: decimal digits or nothing. -/
def payload? (ds : List Char) : Option Nat :=
  if ds.all Numeral.isDigit then some (Numeral.ofDigits ds) else none

/-- The decimal that an unsigned word writes: `inf`, `infinity`, `nan` or `snan` in any case, the
last two with a payload. -/
def special? (negative : Bool) (s : List Char) : Option Decimal :=
  if Numeral.isWord "inf" s || Numeral.isWord "infinity" s then some (.infinite negative)
  else if Numeral.isWord "nan" (s.take 3) then (payload? (s.drop 3)).map (.nan negative false)
  else if Numeral.isWord "snan" (s.take 4) then (payload? (s.drop 4)).map (.nan negative true)
  else none

/-- The decimal that a plain numeral writes. -/
def ofNumeral? (s : List Char) : Option Decimal :=
  let (negative, r) := Numeral.sign s
  match Numeral.Scientific.ofUnsigned? negative r with
  | some x => bounded? x.negative x.coefficient x.exponent
  | none => special? negative r

/-- The decimal that a typed-in text writes. Underscores may stand anywhere. -/
def read? (s : String) : Option Decimal :=
  ofNumeral? ((Numeral.plain (Text.trim Text.isBlank s.toList)).filter (· != '_'))

/-- The decimal of an integer. -/
def ofInt (i : Int) : Decimal :=
  .finite (i < 0) i.natAbs 0

/-- The decimal that is exactly a double. -/
def ofBinary64 : Binary64 → Decimal
  | .finite negative s e =>
    if s = 0 then .finite negative 0 0
    else if 0 ≤ e then .finite negative (s * Power.two e) 0
    else
      let k := min (-e).toNat (twos s (-e).toNat)
      let n := (-e).toNat - k
      .finite negative (s / Nat.pow 2 k * Nat.pow 5 n) (-(n : Int))
  | .infinite negative => .infinite negative
  | .nan => .nan false false 0
where
  /-- How often `2` divides a number, counted up to a limit. -/
  twos (s : Nat) : Nat → Nat
    | 0 => 0
    | limit + 1 => if s % 2 = 0 then twos (s / 2) limit + 1 else 0

/-- Whether the decimal is not a number. -/
def isNan : Decimal → Bool
  | .nan .. => true
  | _ => false

/-- Whether the decimal is a signalling one. -/
def isSignaling : Decimal → Bool
  | .nan _ signaling _ => signaling
  | _ => false

/-- Whether the decimal is zero, of either sign. -/
def isZero : Decimal → Bool
  | .finite _ c _ => c == 0
  | _ => false

/-- The integer that is left of a finite decimal without its fraction. -/
def truncate? : Decimal → Option Int
  | .finite negative c e =>
    if c = 0 ∨ e + digitCount c ≤ 0 then some 0
    else some (Numeral.signed negative (c * Power.ten e / Power.ten (-e)))
  | _ => none

/-! ### Order -/

/-- The order of the sizes of two decimals that are not zero. -/
def compareSize (c : Nat) (e : Int) (d : Nat) (f : Int) : Ordering :=
  match Ord.compare (place c e) (place d f) with
  | .eq =>
    let least := min e f
    Ord.compare (c * Power.ten (e - least)) (d * Power.ten (f - least))
  | o => o

/-- The order of two numbers by value. Zeros are equal, whatever their signs. -/
def compare : Decimal → Decimal → Ordering
  | .finite m c e, .finite n d f =>
    if c = 0 then (if d = 0 then .eq else if n then .gt else .lt)
    else if d = 0 then (if m then .lt else .gt)
    else if m != n then (if m then .lt else .gt)
    else if m then compareSize d f c e else compareSize c e d f
  | .infinite m, .infinite n => Ord.compare (!m) (!n)
  | .infinite m, _ => if m then .lt else .gt
  | _, .infinite n => if n then .gt else .lt
  | _, _ => .eq

/-- A zero equals a number exactly when that number is a zero. -/
theorem compare_zero (m : Bool) (e : Int) (n : Bool) (d : Nat) (f : Int) :
    compare (.finite m 0 e) (.finite n d f) = .eq ↔ d = 0 := by
  by_cases h : d = 0 <;> cases n <;> simp [compare, h]

/-! ### Text -/

/-- A power-of-ten suffix with an explicit sign. -/
def exponentText (e : Int) : List Char :=
  'E' :: (if e < 0 then '-' else '+') :: Numeral.digitsOf e.natAbs

/-- A finite decimal without its sign. Positional if the exponent is not positive and at most six
places are needed in front of the first digit, scientific otherwise. -/
def unsignedText (coefficient : Nat) (exponent : Int) : List Char :=
  let ds := Numeral.digitsOf coefficient
  let point : Int := exponent + ds.length
  if exponent ≤ 0 ∧ -6 < point then
    if exponent = 0 then ds
    else if point ≤ 0 then '0' :: '.' :: (List.replicate (-point).toNat '0' ++ ds)
    else ds.take point.toNat ++ '.' :: ds.drop point.toNat
  else
    (match ds with
      | c :: d :: r => c :: '.' :: d :: r
      | r => r) ++ (if point = 1 then [] else exponentText (point - 1))

/-- The text of a decimal. -/
def text : Decimal → List Char
  | .finite negative c e => signText negative ++ unsignedText c e
  | .infinite negative => signText negative ++ "Infinity".toList
  | .nan negative signaling payload =>
    signText negative ++ (if signaling then "sNaN" else "NaN").toList ++
      (if payload = 0 then [] else Numeral.digitsOf payload)
where
  /-- The minus sign of a negative number. -/
  signText (negative : Bool) : List Char := if negative then ['-'] else []

end Decimal

end Sieve
