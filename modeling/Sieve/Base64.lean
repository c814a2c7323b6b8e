/-!
# Base 64

Octets as texts over an alphabet of 64 digits that is safe in addresses, four digits for three
octets.

* `Base64.encode` fills the last group up with the mark `=`;
* `Base64.decode?` is lenient: digits of the plain alphabet count too, other ASCII characters are
  skipped, and what follows a group filled up by marks is not read. A group that is left open is an
  error.

Main statements: `sextet?_digit` and `octets_sextets` (a group gives its octets back).
-/

namespace Sieve

namespace Base64

/-- The mark that fills up the last group. -/
def pad : Char := '='

/-- The digits in the order of their values. -/
def alphabet : List Char :=
  "ABCDEFGHIJKLMNOPQRSTUVWXYZabcdefghijklmnopqrstuvwxyz0123456789-_".toList

/-- The digit of a value below 64. -/
def digit (n : Nat) : Char :=
  alphabet[n]?.getD 'A'

/-- The value of a digit; the plain alphabet has `+` and `/` for the last two. -/
def sextet? (c : Char) : Option Nat :=
  if c = '+' then some 62
  else if c = '/' then some 63
  else if c.isUpper then some (c.toNat - 65)
  else if c.isLower then some (c.toNat - 71)
  else if c.isDigit then some (c.toNat + 4)
  else if c = '-' then some 62
  else if c = '_' then some 63
  else none

/-- Every digit stands for its value. -/
theorem sextet?_digit : ∀ n < 64, sextet? (digit n) = some n := by decide +kernel

/-- The values of the digits of one, two or three octets. -/
def sextets : List UInt8 → List Nat
  | [a] => [a.toNat / 4, a.toNat % 4 * 16]
  | [a, b] => [a.toNat / 4, a.toNat % 4 * 16 + b.toNat / 16, b.toNat % 16 * 4]
  | [a, b, c] =>
    [a.toNat / 4, a.toNat % 4 * 16 + b.toNat / 16, b.toNat % 16 * 4 + c.toNat / 64, c.toNat % 64]
  | _ => []

/-- The octets of the values of two, three or four digits; bits that do not fill an octet are not
used. -/
def octets : List Nat → List UInt8
  | [a, b] => [UInt8.ofNat (a * 4 + b / 16)]
  | [a, b, c] => [UInt8.ofNat (a * 4 + b / 16), UInt8.ofNat (b % 16 * 16 + c / 4)]
  | [a, b, c, d] =>
    [UInt8.ofNat (a * 4 + b / 16), UInt8.ofNat (b % 16 * 16 + c / 4), UInt8.ofNat (c % 4 * 64 + d)]
  | _ => []

/-- A full group of octets comes back from its digits. -/
theorem octets_sextets (a b c : UInt8) : octets (sextets [a, b, c]) = [a, b, c] := by
  have ha := a.toNat_lt
  have hb := b.toNat_lt
  have hc := c.toNat_lt
  have h1 : a.toNat / 4 * 4 + (a.toNat % 4 * 16 + b.toNat / 16) / 16 = a.toNat := by omega
  have h2 : (a.toNat % 4 * 16 + b.toNat / 16) % 16 * 16 + (b.toNat % 16 * 4 + c.toNat / 64) / 4 =
      b.toNat := by omega
  have h3 : (b.toNat % 16 * 4 + c.toNat / 64) % 4 * 64 + c.toNat % 64 = c.toNat := by omega
  simp only [sextets, octets, h1, h2, h3, UInt8.ofNat_toNat]

/-- The text of some octets. -/
def encode : List UInt8 → List Char
  | a :: b :: c :: r => (sextets [a, b, c]).map digit ++ encode r
  | [a, b] => (sextets [a, b]).map digit ++ [pad]
  | [a] => (sextets [a]).map digit ++ [pad, pad]
  | [] => []

/-- The octets of a text of which the digits of an open group and a number of marks have been
read. -/
def decodeFrom (group : List Nat) (pads : Nat) : List Char → Option (List UInt8)
  | [] => if group.isEmpty then some [] else none
  | c :: r =>
    if c = pad then
      if group.length < 2 then decodeFrom group pads r
      else if group.length + pads + 1 < 4 then decodeFrom group (pads + 1) r
      else some (octets group)
    else
      match sextet? c with
      | none => decodeFrom group pads r
      | some n =>
        if group.length < 3 then decodeFrom (group ++ [n]) 0 r
        else (decodeFrom [] 0 r).map (octets (group ++ [n]) ++ ·)

/-- The octets of a text of ASCII characters, if its groups are complete. -/
def decode? (s : List Char) : Option (List UInt8) :=
  if s.all (·.toNat < 128) then decodeFrom [] 0 s else none

end Base64

end Sieve
