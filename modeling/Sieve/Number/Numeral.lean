import Sieve.Text.Blank
import Sieve.Text.Digit
/-!
# Numerals

The texts of numbers that a user may type in. A numeral may be surrounded by white space, may use
the digits of any script and may group digits by single underscores.

* `plain` writes all digits as ASCII digits; `ungroup?` removes the underscores between digits;
* `integer?` reads an integer, `Scientific.read?` a number with a point and an exponent;
* `digitsOf` writes a natural number, `integerText` an integer; `isShort` says which integers are
  not too long to be written.

Main statement: `ofDigits_digitsOf` (reading digits inverts writing them).
-/

namespace Sieve.Numeral

open Sieve.Text

/-- Whether the character is one of `0 … 9`. -/
def isDigit (c : Char) : Bool :=
  c.isDigit

/-- The text with the digits of all scripts written as `0 … 9`. -/
def plain (s : List Char) : List Char :=
  s.map fun c => match digit? c with
    | some d => digitChar d
    | none => c

/-- The text without the underscores that stand between two digits; any other underscore is
refused. The flag says whether a digit comes just before. -/
def ungroup? (afterDigit : Bool) : List Char → Option (List Char)
  | [] => some []
  | c :: r =>
    if c = '_' then
      if afterDigit && (r.head?.any isDigit) then ungroup? false r else none
    else (ungroup? (isDigit c) r).map (c :: ·)

/-- The sign in front of a number and the rest: `-` is negative, `+` and nothing are not. -/
def sign : List Char → Bool × List Char
  | '-' :: r => (true, r)
  | '+' :: r => (false, r)
  | s => (false, s)

/-- The decimal digits of a natural number. -/
def digitsOf (n : Nat) : List Char :=
  Nat.toDigits 10 n

/-- The number written by decimal digits. -/
def ofDigits (ds : List Char) : Nat :=
  Nat.ofDigitChars 10 ds 0

/-- The number written by a non-empty run of digits. -/
def natural? (ds : List Char) : Option Nat :=
  if ds.isEmpty || !ds.all isDigit then none else some (ofDigits ds)

/-- The integer with the given sign and size. -/
def signed (negative : Bool) (n : Nat) : Int :=
  if negative then -(n : Int) else n

/-- The greatest number of digits an integer may be read from or written with. -/
def maxDigits : Nat := 4300

/-- The integer that a text writes: white space around, a sign, digits of any script with single
underscores between them, at most `maxDigits` of them. -/
def integer? (s : String) : Option Int := do
  let t ← ungroup? false (plain (trim isSpacing s.toList))
  let (negative, ds) := sign t
  let n ← natural? ds
  if ds.length ≤ maxDigits then some (signed negative n) else none

/-- The text of an integer: a minus sign if negative, then its digits. -/
def integerText (i : Int) : List Char :=
  if i < 0 then '-' :: digitsOf i.natAbs else digitsOf i.natAbs

/-- Whether an integer has few enough digits to be written. -/
def isShort (i : Int) : Bool :=
  (digitsOf i.natAbs).length ≤ maxDigits

@[simp] theorem ofDigits_digitsOf (n : Nat) : ofDigits (digitsOf n) = n :=
  Nat.ofDigitChars_toDigits (by decide) (by decide)

/-- A number with a decimal point and an exponent: `± coefficient · 10 ^ exponent`. -/
structure Scientific where
  /-- Whether the number has a minus sign; zero may have one. -/
  negative : Bool
  /-- The digits without the point, as one number. -/
  coefficient : Nat
  /-- The power of ten that the coefficient counts. -/
  exponent : Int
  deriving DecidableEq, Repr

/-- The exponent part of a numeral, if any: `e` or `E`, a sign, digits. -/
def exponentPart? : List Char → Option Int
  | [] => some 0
  | c :: r =>
    if c = 'e' ∨ c = 'E' then
      let (negative, ds) := sign r
      (natural? ds).map (signed negative)
    else none

/-- A number without a sign: digits with at most one point, at least one digit, an exponent. -/
def Scientific.ofUnsigned? (negative : Bool) (s : List Char) : Option Scientific :=
  let whole := s.takeWhile isDigit
  let (fraction, rest) := match s.dropWhile isDigit with
    | '.' :: r => (r.takeWhile isDigit, r.dropWhile isDigit)
    | r => ([], r)
  let digits := whole ++ fraction
  if digits.isEmpty then none
  else (exponentPart? rest).map fun e => ⟨negative, ofDigits digits, e - fraction.length⟩

/-- Whether the text, in any case, is the given lower-case word. -/
def isWord (word : String) (s : List Char) : Bool :=
  s.map Char.toLower == word.toList

end Sieve.Numeral
