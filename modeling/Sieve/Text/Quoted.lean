import Sieve.Text.Printable
import Sieve.Text.Surrogate
import Sieve.Uuid
/-!
# Quoted texts

A quoted text stands between single quotes, or between double quotes if it holds a single quote and
no double quote. Inside, the quote and the backslash follow a backslash, tab, line feed and carriage
return have their letters, and all other characters that are not printable are written by their
code in hexadecimal.

* `quote` quotes a text, `quotePoints` one with surrogates, `quoteOctets` a sequence of octets.

Main statement: `quote_plain` (a text of printable characters without quotes and backslashes is
only put between single quotes).
-/

namespace Sieve.Text

/-- A character that is not printable, by its code: two, four or eight digits. -/
def codeEscape (n : Nat) : List Char :=
  if n < 256 then '\\' :: 'x' :: Uuid.hexDigits 2 n
  else if n < 65536 then '\\' :: 'u' :: Uuid.hexDigits 4 n
  else '\\' :: 'U' :: Uuid.hexDigits 8 n

/-- A character between the given quotes. -/
def escape (mark : Char) (printable : Char → Bool) (c : Char) : List Char :=
  if c = mark ∨ c = '\\' then ['\\', c]
  else if c = '\t' then ['\\', 't']
  else if c = '\n' then ['\\', 'n']
  else if c = '\r' then ['\\', 'r']
  else if printable c then [c]
  else codeEscape c.toNat

/-- The quote that a text is put between. -/
def markFor (s : List Char) : Char :=
  if s.contains '\'' && !s.contains '"' then '"' else '\''

/-- A text between quotes, with the given characters shown as themselves. -/
def quoteWith (printable : Char → Bool) (s : List Char) : List Char :=
  markFor s :: s.flatMap (escape (markFor s) printable) ++ [markFor s]

/-- A text between quotes. -/
def quote (s : List Char) : List Char :=
  quoteWith isPrintable s

/-- A text of code points between quotes; a surrogate is not printable. -/
def quotePoints (ps : List CodePoint) : List Char :=
  let mark := markFor (ps.filterMap CodePoint.char?)
  let escapePoint : CodePoint → List Char
    | .char c => escape mark isPrintable c
    | .surrogate s => codeEscape s.code
  mark :: ps.flatMap escapePoint ++ [mark]

/-- A sequence of octets between quotes, after the letter `b`. -/
def quoteOctets (b : List UInt8) : List Char :=
  'b' :: quoteWith (fun c => 32 ≤ c.toNat && c.toNat ≤ 126) (b.map fun o => Char.ofNat o.toNat)

/-- A text of printable characters without quotes and backslashes is only put between quotes. -/
theorem quote_plain {s : List Char}
    (h : ∀ c ∈ s, isPrintable c = true ∧ c ≠ '\'' ∧ c ≠ '\\' ∧ c ≠ '\t' ∧ c ≠ '\n' ∧ c ≠ '\r') :
    quote s = '\'' :: s ++ ['\''] := by
  have hm : markFor s = '\'' := by
    have : '\'' ∉ s := fun hc => (h _ hc).2.1 rfl
    simp [markFor, this]
  have he : s.flatMap (escape '\'' isPrintable) = s := by
    clear hm
    induction s with
    | nil => rfl
    | cons c r ih =>
      obtain ⟨hp, h1, h2, h3, h4, h5⟩ := h c (by simp)
      rw [List.flatMap_cons, ih fun d hd => h d (by simp [hd])]
      simp [escape, h1, h2, h3, h4, h5, hp]
  simp [quote, quoteWith, hm, he]

end Sieve.Text
