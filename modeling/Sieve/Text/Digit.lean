/-!
# Decimal digits of all scripts

A number typed in by a user may be written with the decimal digits of any script. Every script
has its ten digits in order, so its digit zero determines them.

Main statements: `digit?_lt` (a digit is below ten) and `digit?_ascii`.
-/

namespace Sieve.Text

/-- The code points of the digit zero of each script, in increasing order. -/
def digitZeros : List Nat :=
  [
    48, 1632, 1776, 1984, 2406, 2534, 2662, 2790, 2918, 3046, 3174, 3302, 3430, 3558, 3664, 3792,
    3872, 4160, 4240, 6112, 6160, 6470, 6608, 6784, 6800, 6992, 7088, 7232, 7248, 42528, 43216,
    43264, 43472, 43504, 43600, 44016, 65296, 66720, 68912, 69734, 69872, 69942, 70096, 70384,
    70736, 70864, 71248, 71360, 71472, 71904, 72016, 72784, 73040, 73120, 92768, 92864, 93008,
    120782, 120792, 120802, 120812, 120822, 123200, 123632, 125264, 130032]

/-- The value of a decimal digit of any script. -/
def digit? (c : Char) : Option Nat :=
  (digitZeros.find? fun z => z ≤ c.toNat && c.toNat < z + 10).map (c.toNat - ·)

theorem digit?_lt {c : Char} {d : Nat} (h : digit? c = some d) : d < 10 := by
  obtain ⟨z, hz, rfl⟩ := Option.map_eq_some_iff.1 h
  have := List.find?_some hz
  simp at this
  omega

/-- The value of one of the characters `0 … 9`. -/
def asciiDigit? (c : Char) : Option Nat :=
  if '0'.toNat ≤ c.toNat ∧ c.toNat ≤ '9'.toNat then some (c.toNat - '0'.toNat) else none

/-- The digits `0 … 9` are read alike by both readers. -/
theorem digit?_ascii {c : Char} {d : Nat} (h : asciiDigit? c = some d) : digit? c = some d := by
  unfold asciiDigit? at h
  split at h
  · rename_i hc
    have h0 : '0'.toNat = 48 := rfl
    have h9 : '9'.toNat = 57 := rfl
    rw [h0, h9] at hc
    have hd : digitZeros = 48 :: digitZeros.tail := rfl
    have : (decide (48 ≤ c.toNat) && decide (c.toNat < 48 + 10)) = true := by simp; omega
    rw [digit?, hd, List.find?_cons_of_pos (by simpa using this)]
    simpa [h0] using h
  · simp at h

/-- The character that writes a digit below ten. -/
def digitChar (d : Nat) : Char :=
  Char.ofNat ('0'.toNat + d % 10)

end Sieve.Text
