/-!
# Texts with surrogates

A character outside the first plane is written in UTF-16 by two units, its surrogates. A text that
was put together from such units may hold one without the other. A surrogate is a code point then,
but no character, and the text has no octets in UTF-8.

* `CodePoint` is a character or a surrogate;
* `BrokenText` is a text with at least one surrogate, `RawText` one that is whole or broken;
* `RawText.ofPoints` is the text of some code points.

Main statements: `ofPoints_chars` (characters alone make a whole text), `points_ofPoints`.
-/

namespace Sieve

/-- Half of a pair of UTF-16 units. -/
structure Surrogate where
  /-- The unit. -/
  code : Nat
  /-- It is one of those that no character has. -/
  inRange : 0xD800 ≤ code ∧ code < 0xE000 := by decide
  deriving DecidableEq, Repr

/-- A code point of a text. -/
inductive CodePoint
  /-- A character. -/
  | char (c : Char)
  /-- A surrogate that stands alone. -/
  | surrogate (s : Surrogate)
  deriving DecidableEq, Repr

namespace CodePoint

/-- The number of a code point. -/
def code : CodePoint → Nat
  | char c => c.toNat
  | surrogate s => s.code

/-- Whether the code point is no character. -/
def isSurrogate : CodePoint → Bool
  | char _ => false
  | surrogate _ => true

/-- The character that a code point is. -/
def char? : CodePoint → Option Char
  | char c => some c
  | surrogate _ => none

/-- The character that is shown for a code point. -/
def shown : CodePoint → Char
  | char c => c
  | surrogate _ => '\ufffd'

/-- The code point with a number. -/
def ofNat? (n : Nat) : Option CodePoint :=
  if h : 0xD800 ≤ n ∧ n < 0xE000 then some (surrogate ⟨n, h⟩)
  else if n.isValidChar then some (char (Char.ofNat n))
  else none

theorem ofNat?_toNat (c : Char) : ofNat? c.toNat = some (char c) := by
  have hvalid : c.toNat.isValidChar := c.valid
  have hrange : ¬(0xD800 ≤ c.toNat ∧ c.toNat < 0xE000) := by
    rcases hvalid with h | ⟨h, _⟩ <;> omega
  simp [ofNat?, hrange, hvalid]

end CodePoint

/-- A text with at least one surrogate that stands alone. -/
structure BrokenText where
  /-- The code points. -/
  points : List CodePoint
  /-- One of them is a surrogate. -/
  broken : points.any CodePoint.isSurrogate = true
  deriving DecidableEq, Repr

theorem BrokenText.points_ne_nil (t : BrokenText) : t.points ≠ [] := by
  intro h
  have hbroken := t.broken
  rw [h] at hbroken
  cases hbroken

/-- A text as it comes from UTF-16 units. -/
inductive RawText
  /-- A text of characters. -/
  | whole (s : String)
  /-- A text with surrogates. -/
  | broken (t : BrokenText)
  deriving DecidableEq, Repr

namespace RawText

/-- The text of some code points. -/
def ofPoints (ps : List CodePoint) : RawText :=
  if h : ps.any CodePoint.isSurrogate = true then .broken ⟨ps, h⟩
  else .whole (String.ofList (ps.filterMap CodePoint.char?))

/-- The code points of a text. -/
def points : RawText → List CodePoint
  | whole s => s.toList.map .char
  | broken t => t.points

/-- The text without surrogates that a text is. -/
def whole? : RawText → Option String
  | whole s => some s
  | broken _ => none

/-- The code points of a text, each as a text. -/
def singles (t : RawText) : List RawText :=
  t.points.map fun p => ofPoints [p]

/-- Characters alone make a whole text. -/
@[simp] theorem ofPoints_chars (s : List Char) :
    ofPoints (s.map .char) = .whole (String.ofList s) := by
  have hnone : (s.map CodePoint.char).any CodePoint.isSurrogate = false := by
    simp [CodePoint.isSurrogate]
  have hchars : (s.map CodePoint.char).filterMap CodePoint.char? = s := by
    rw [List.filterMap_map]
    exact List.filterMap_some
  rw [ofPoints, dif_neg (by simp [hnone]), hchars]

theorem points_ofPoints (ps : List CodePoint) : (ofPoints ps).points = ps := by
  unfold ofPoints
  split
  · rfl
  · next h =>
    have hall : ∀ p ∈ ps, p.isSurrogate = false := by simpa using h
    rw [points, String.toList_ofList]
    clear h
    induction ps with
    | nil => rfl
    | cons p ps ih =>
      cases p with
      | char c =>
        simpa [CodePoint.char?] using ih fun q hq => hall q (List.mem_cons_of_mem _ hq)
      | surrogate s => exact absurd (hall (.surrogate s) (by simp)) (by simp [CodePoint.isSurrogate])

end RawText

end Sieve
