import Sieve.Text.Fold
/-!
# Search patterns

A pattern is a text in which `%` stands for any run of characters, `_` for any one character, and
an escape character makes the next character stand for itself.

* `escape` makes a text stand for itself, `substring` looks for it anywhere;
* `Token` is a part of a pattern, `tokens` reads a pattern, `accepts` compares it with a
  text.

Main statements: `tokens_escape` (an escaped text reads as its own characters) and
`matchesTokens_literals`.
-/

namespace Sieve.Like

/-- The escape character of the patterns that the library builds. -/
def escapeChar : Char := '\\'

/-- Whether a character is written behind an escape. -/
def isSpecial (c : Char) : Bool :=
  c == '\\' || c == '%' || c == '_'

/-- The text with the escape in front of each special character. -/
def escape (mark : List Char) (s : List Char) : List Char :=
  s.flatMap fun c => if isSpecial c then mark ++ [c] else [c]

/-- A pattern for the texts that hold the given one. -/
def substring (mark : List Char) (s : List Char) : List Char :=
  '%' :: escape mark s ++ ['%']

/-- A part of a pattern. -/
inductive Token
  /-- A character. -/
  | literal (c : Char)
  /-- Any one character. -/
  | anyOne
  /-- Any run of characters. -/
  | anyRun
  deriving DecidableEq, Repr

/-- What a character stands for without an escape. -/
def Token.ofChar (c : Char) : Token :=
  if c = '%' then .anyRun else if c = '_' then .anyOne else .literal c

/-- The parts of a pattern. An escape at the end stands for itself. -/
def tokens (mark : Option Char) : List Char → List Token
  | [] => []
  | [c] => if mark = some c then [.literal c] else [.ofChar c]
  | c :: d :: r =>
    if mark = some c then .literal d :: tokens mark r else .ofChar c :: tokens mark (d :: r)

/-- Whether some end of a text, the whole of it included, satisfies a test. -/
def anySuffix (p : List Char → Bool) : List Char → Bool
  | [] => p []
  | c :: r => p (c :: r) || anySuffix p r

/-- Whether a text consists of what the parts of a pattern stand for. -/
def matchesTokens (same : Char → Char → Bool) : List Token → List Char → Bool
  | [], s => s.isEmpty
  | .literal c :: p, d :: r => same c d && matchesTokens same p r
  | .literal _ :: _, [] => false
  | .anyOne :: p, _ :: r => matchesTokens same p r
  | .anyOne :: _, [] => false
  | .anyRun :: p, s => anySuffix (matchesTokens same p) s

/-- Whether two characters count as the same. -/
def sameChar (caseSensitive : Bool) (c d : Char) : Bool :=
  if caseSensitive then c == d else Text.sameLetter c d

/-- Whether a pattern matches the whole of a text. -/
def accepts (mark : Option Char) (caseSensitive : Bool) (pattern text : String) : Bool :=
  matchesTokens (sameChar caseSensitive) (tokens mark pattern.toList) text.toList

/-- An escaped text stands for its own characters. -/
theorem tokens_escape (s r : List Char) :
    tokens (some escapeChar) (escape [escapeChar] s ++ r) =
      s.map Token.literal ++ tokens (some escapeChar) r := by
  induction s with
  | nil => rfl
  | cons c s ih =>
    by_cases hc : isSpecial c = true
    · have : escape [escapeChar] (c :: s) = escapeChar :: c :: escape [escapeChar] s := by
        simp [escape, hc]
      simp [this, tokens, ih]
    · have he : escape [escapeChar] (c :: s) = c :: escape [escapeChar] s := by
        simp [escape, hc]
      have hne : some escapeChar ≠ some c := by
        intro h
        have : escapeChar = c := by simpa using h
        subst this
        simp [isSpecial, escapeChar] at hc
      have ho : Token.ofChar c = .literal c := by
        simp only [isSpecial, Bool.or_eq_true, beq_iff_eq, not_or] at hc
        simp [Token.ofChar, hc.1.2, hc.2]
      rw [he, List.cons_append, List.map_cons, List.cons_append, ← ih]
      cases h : escape [escapeChar] s ++ r with
      | nil => simp [tokens, hne, ho]
      | cons d t => simp [tokens, hne, ho]

/-- Literal parts match the characters they name. -/
theorem matchesTokens_literals (same : Char → Char → Bool) (s : List Char) (p : List Token)
    (t : List Char) :
    matchesTokens same (s.map Token.literal ++ p) t =
      (s.length ≤ t.length && (List.zipWith same s t).all id &&
        matchesTokens same p (t.drop s.length)) := by
  induction s generalizing t with
  | nil => simp
  | cons c s ih =>
    cases t with
    | nil => simp [matchesTokens]
    | cons d t => simp [matchesTokens, ih, Bool.and_assoc, Bool.and_left_comm]

end Sieve.Like
