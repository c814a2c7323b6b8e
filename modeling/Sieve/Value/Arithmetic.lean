import Sieve.Value.Order
import Sieve.Number.Binary64.Arithmetic
import Sieve.Number.Decimal.Arithmetic
/-!
# Arithmetic of values

Sums, differences, products and quotients of integers, truth values, decimals and doubles. Truth
values count as 1 and 0. Two integers have an integer as result; a decimal or a double makes the result
one. Decimals and doubles are not mixed, and other values do not take part.

* `plus`, `minus` and `times` compute, `ceilQuotient` divides and rounds up;
* `atLeast`, `raisedTo` and `atMost` choose one of two values; of two equal ones the first;
* `wholePart` is the integer that a number is without its fraction, or that a text writes;
  `position?` is the place in a list that a value stands for.

Main statements: `plus_int`, `minus_int`, `times_int`, `precedes_int_eq`, `atLeast_int`,
`atMost_int`.
-/

namespace Sieve

namespace Value

/-- The integer that a truth value or an integer counts as. -/
def count? : Value → Option Int
  | int i => some i
  | bool b => some (if b then 1 else 0)
  | _ => none

/-- The double that a number counts as. -/
def double (v : Value) : Except Error Binary64 :=
  match v with
  | float x => .ok x
  | v =>
    match v.count? with
    | none => .error .mismatch
    | some i =>
      match Binary64.ofInt? i with
      | some x => .ok x
      | none => .error .overflow

/-- Whether the value is a double, or an integer that may count as one. -/
def isReal : Value → Bool
  | float _ => true
  | v => v.count?.isSome

/-- The decimal that a decimal or an integer counts as. -/
def decimal? : Value → Option Decimal
  | decimal d => some d
  | v => v.count?.map .ofInt

/-- The result of a computation with decimals. -/
def ofTrapped {α : Type} : Except Decimal.Trap α → Except Error α
  | .ok x => .ok x
  | .error .invalid => .error .invalidOperation
  | .error .overflow => .error .overflow
  | .error .zeroDivisor => .error .divisionByZero

/-- The result of an operation on two numbers: that on integers if both are integers, that on
decimals if one of them is a decimal, else that on doubles. -/
def compute {α : Type} (whole : Int → Int → Except Error α)
    (decimals : Decimal → Decimal → Except Error α)
    (doubles : Binary64 → Binary64 → Except Error α) (a b : Value) : Except Error α :=
  match a.count?, b.count? with
  | some m, some n => whole m n
  | _, _ =>
    match a.decimal?, b.decimal? with
    | some x, some y => decimals x y
    | _, _ =>
      if a.isReal && b.isReal then do doubles (← a.double) (← b.double) else .error .mismatch

/-- The sum of two numbers. -/
def plus : Value → Value → Except Error Value :=
  compute (fun m n => .ok (int (m + n))) (fun x y => decimal <$> ofTrapped (x.add y))
    fun x y => .ok (float (x.add y))

/-- The difference of two numbers. -/
def minus : Value → Value → Except Error Value :=
  compute (fun m n => .ok (int (m - n))) (fun x y => decimal <$> ofTrapped (x.sub y))
    fun x y => .ok (float (x.sub y))

/-- The product of two numbers. -/
def times : Value → Value → Except Error Value :=
  compute (fun m n => .ok (int (m * n))) (fun x y => decimal <$> ofTrapped (x.mul y))
    fun x y => .ok (float (x.mul y))

@[simp] theorem plus_int (m n : Int) : plus (int m) (int n) = .ok (int (m + n)) := rfl

@[simp] theorem minus_int (m n : Int) : minus (int m) (int n) = .ok (int (m - n)) := rfl

@[simp] theorem times_int (m n : Int) : times (int m) (int n) = .ok (int (m * n)) := rfl

/-- The least integer that is not below a double. -/
def ceiling (x : Binary64) : Except Error Int :=
  match x.ceil? with
  | some n => .ok n
  | none => .error (if x = .nan then .malformed else .overflow)

/-- The least integer that is not below a decimal. -/
def decimalCeiling (x : Decimal) : Except Error Int :=
  match x.ceil? with
  | some n => .ok n
  | none => .error (if x.isNan then .malformed else .overflow)

/-- The quotient of two numbers as a double or a decimal, rounded up to an integer. -/
def ceilQuotient : Value → Value → Except Error Int :=
  compute
    (fun m n =>
      if n = 0 then .error .divisionByZero
      else ceiling (.ofRatio (decide (m < 0) != decide (n < 0)) m.natAbs n.natAbs))
    (fun x y => do decimalCeiling (← ofTrapped (x.div y)))
    fun x y =>
      match x.div? y with
      | some q => ceiling q
      | none => .error .divisionByZero

/-- A value, but at least `least`: `least` unless the value is greater. -/
def atLeast (least v : Value) : Except Error Value := do
  return if ← precedes false least v then v else least

/-- A value, but at least `least`: the value unless `least` is greater. -/
def raisedTo (v least : Value) : Except Error Value := do
  return if ← precedes false v least then least else v

/-- A value, but at most `greatest`: the value unless `greatest` is less. -/
def atMost (v greatest : Value) : Except Error Value := do
  return if ← precedes false greatest v then greatest else v

/-- Integers are in front of each other as their numbers are. -/
theorem precedes_int_eq (m n : Int) : precedes false (int m) (int n) = .ok (decide (m < n)) := by
  rw [precedes_int]
  by_cases h : m < n
  · rw [Int.compare_eq_lt.2 h]
    simp [ordered, h]
  · cases hc : Ord.compare m n with
    | lt => exact absurd (Int.compare_eq_lt.1 hc) h
    | eq => simp [ordered, h]
    | gt => simp [ordered, h]

@[simp] theorem atLeast_int (m n : Int) : atLeast (int m) (int n) = .ok (int (max m n)) := by
  by_cases h : m < n
  · simp [atLeast, precedes_int_eq, bind, Except.bind, pure, Except.pure, h,
      Int.max_eq_right (Int.le_of_lt h), -precedes_int]
  · have hle : n ≤ m := by omega
    simp [atLeast, precedes_int_eq, bind, Except.bind, pure, Except.pure, h, Int.max_eq_left hle,
      -precedes_int]

@[simp] theorem atMost_int (m n : Int) : atMost (int m) (int n) = .ok (int (min m n)) := by
  by_cases h : n < m
  · simp [atMost, precedes_int_eq, bind, Except.bind, pure, Except.pure, h,
      Int.min_eq_right (Int.le_of_lt h), -precedes_int]
  · have hle : m ≤ n := by omega
    simp [atMost, precedes_int_eq, bind, Except.bind, pure, Except.pure, h, Int.min_eq_left hle,
      -precedes_int]

/-- The characters of octets that are all ASCII characters other than separators of
information. -/
def asciiText? (b : List UInt8) : Option String :=
  if b.all fun o => o.toNat < 128 && !(28 ≤ o.toNat && o.toNat < 32) then
    some (String.ofList (b.map fun o => Char.ofNat o.toNat))
  else none

/-- The integer left of a number without its fraction; infinities are out of range. -/
def truncated (infinite : Bool) (i : Option Int) : Except Error Int :=
  match i with
  | some i => .ok i
  | none => .error (if infinite then .overflow else .malformed)

/-- The integer that a number is without its fraction, or that a text or octets write. -/
def wholePart : Value → Except Error Int
  | int i => .ok i
  | bool b => .ok (if b then 1 else 0)
  | text s => truncated false (Numeral.integer? s)
  | bytes b => truncated false (asciiText? b >>= Numeral.integer?)
  | float x => truncated (x != .nan) x.truncate?
  | decimal d => truncated (!d.isNan) d.truncate?
  | uuid u => .ok u.value
  | _ => .error .mismatch

/-- The place in a list that a value stands for; null stands for none. -/
def position? (v : Value) : Except Error (Option Int) :=
  match v with
  | null => .ok none
  | v =>
    match v.count? with
    | some i => .ok (some i)
    | none => .error .mismatch

@[simp] theorem position?_int (i : Int) : position? (int i) = .ok (some i) := rfl

@[simp] theorem position?_null : position? null = .ok none := rfl

end Value

end Sieve
