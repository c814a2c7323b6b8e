import Sieve.Number.Numeral
/-!
# Universally unique identifiers

An identifier is a number of 128 bits. It is written as 32 hexadecimal digits in groups of 8, 4, 4,
4 and 12. Reading drops the marks `urn:` and `uuid:` and all hyphens wherever they stand, and
braces at the ends; the 32 characters left are one hexadecimal number, so that white space, a sign,
`0x` and single underscores may be among them.

* `Uuid.read?` reads, `Uuid.text` writes.

Main statement: `Uuid.length_hexDigits`.
-/

namespace Sieve

/-- How many numbers of 128 bits there are. -/
abbrev Uuid.count : Nat := 0x100000000000000000000000000000000

/-- A number of 128 bits. -/
structure Uuid where
  /-- The number. -/
  value : Nat
  /-- It has 128 bits. -/
  inRange : value < Uuid.count := by decide
  deriving DecidableEq, Repr

namespace Uuid

/-- The identifier of a number, if it is in range. -/
def ofNat? (n : Nat) : Option Uuid :=
  if h : n < count then some ⟨n, h⟩ else none

/-- The last `width` hexadecimal digits of a number, most significant first. -/
def hexDigits : Nat → Nat → List Char
  | 0, _ => []
  | width + 1, n => hexDigits width (n / 16) ++ [Nat.digitChar (n % 16)]

@[simp] theorem length_hexDigits (width n : Nat) : (hexDigits width n).length = width := by
  induction width generalizing n with
  | zero => rfl
  | succ width ih => simp [hexDigits, ih]

/-- The text of an identifier. -/
def text (u : Uuid) : List Char :=
  let ds := hexDigits 32 u.value
  ds.take 8 ++ '-' :: (ds.drop 8).take 4 ++ '-' :: (ds.drop 12).take 4 ++
    '-' :: (ds.drop 16).take 4 ++ '-' :: ds.drop 20

/-- The text without the occurrences of a pattern, found from the left; the first `skip`
characters belong to one already found. -/
def removeAll (pattern : List Char) (skip : Nat) : List Char → List Char
  | [] => []
  | c :: r =>
    match skip with
    | skip + 1 => removeAll pattern skip r
    | 0 =>
      if pattern.isPrefixOf (c :: r) then removeAll pattern (pattern.length - 1) r
      else c :: removeAll pattern 0 r

/-- The value of a hexadecimal digit. -/
def hexDigit? (c : Char) : Option Nat :=
  if c.isDigit then some (c.toNat - '0'.toNat)
  else if 'a' ≤ c ∧ c ≤ 'f' then some (c.toNat - 'a'.toNat + 10)
  else if 'A' ≤ c ∧ c ≤ 'F' then some (c.toNat - 'A'.toNat + 10)
  else none

/-- The number written by hexadecimal digits with single underscores between them. -/
def hexNatural? (n : Nat) (afterDigit : Bool) : List Char → Option Nat
  | [] => if afterDigit then some n else none
  | c :: r =>
    if c = '_' then
      if afterDigit then hexNatural? n false r else none
    else do
      let d ← hexDigit? c
      hexNatural? (n * 16 + d) true r

/-- The number that a text writes in hexadecimal. -/
def hexNumber? (s : List Char) : Option Int := do
  let (negative, r) := Numeral.sign (Numeral.plain (Text.trim Text.isSpacing s))
  let r := match r with
    | '0' :: 'x' :: '_' :: r => r
    | '0' :: 'X' :: '_' :: r => r
    | '0' :: 'x' :: r => r
    | '0' :: 'X' :: r => r
    | r => r
  let n ← hexNatural? 0 false r
  some (Numeral.signed negative n)

/-- The identifier that a text writes. -/
def read? (s : String) : Option Uuid := do
  let t := removeAll "uuid:".toList 0 (removeAll "urn:".toList 0 s.toList)
  let t := (Text.trim (fun c => c == '{' || c == '}') t).filter (· != '-')
  if t.length = 32 then
    let n ← hexNumber? t
    if n < 0 then none else ofNat? n.toNat
  else none

end Uuid

end Sieve
