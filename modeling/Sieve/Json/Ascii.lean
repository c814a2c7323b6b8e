import Sieve.Json
/-!
# JSON texts in ASCII

JSON data as a text of ASCII characters only: other characters are escaped by their UTF-16 units.

* `Json.ascii` writes data without any spaces.

Main statement: `asciiChar_ascii`.
-/

namespace Sieve

namespace Json

/-- A character of a text, escaped if need be. -/
def asciiChar (c : Char) : List Char :=
  let n := c.toNat
  if c = '"' then ['\\', '"']
  else if c = '\\' then ['\\', '\\']
  else if 32 ≤ n ∧ n < 127 then [c]
  else if n < 0x10000 then asciiUnit n
  else asciiUnit (0xD800 + (n - 0x10000) / 0x400) ++ asciiUnit (0xDC00 + (n - 0x10000) % 0x400)

/-- A printable character that has no meaning of its own stands for itself. -/
theorem asciiChar_ascii {c : Char} (h : 32 ≤ c.toNat ∧ c.toNat < 127) (hq : c ≠ '"')
    (hb : c ≠ '\\') : asciiChar c = [c] := by
  simp [asciiChar, h, hq, hb]

/-- Adds a text in quotes. -/
def asciiText (before : String) (s : String) : String :=
  (s.toList.foldl (fun t c => (asciiChar c).foldl String.push t) (before.push '"')).push '"'

/-- A code point of a text, escaped if need be. -/
def asciiPoint : CodePoint → List Char
  | .char c => asciiChar c
  | .surrogate s => asciiUnit s.code

/-- Adds a text of code points in quotes. -/
def asciiPoints (before : String) (ps : List CodePoint) : String :=
  (ps.foldl (fun t p => (asciiPoint p).foldl String.push t) (before.push '"')).push '"'

mutual

/-- Adds data to a text. -/
def asciiAfter (before : String) : Json → String
  | null => before ++ "null"
  | bool b => before ++ if b then "true" else "false"
  | int i => before ++ String.ofList (Numeral.integerText i)
  | float x => before ++ String.ofList (writeFloat x)
  | text s => asciiText before s
  | broken t => asciiPoints before t.points
  | array xs => (asciiItems (before.push '[') true xs).push ']'
  | object es => (asciiEntries (before.push '\x7b') true es).push '\x7d'
  | brokenObject es => (asciiRawEntries (before.push '\x7b') true es).push '\x7d'

/-- Adds items to a text, with commas between them. -/
def asciiItems (before : String) (first : Bool) : List Json → String
  | [] => before
  | x :: r => asciiItems (asciiAfter (if first then before else before.push ',') x) false r

/-- Adds entries to a text, with commas between them. -/
def asciiEntries (before : String) (first : Bool) : List (String × Json) → String
  | [] => before
  | (k, v) :: r =>
    let t := asciiText (if first then before else before.push ',') k
    asciiEntries (asciiAfter (t.push ':') v) false r

/-- Adds entries of an object with surrogates in its keys to a text, with commas between them. -/
def asciiRawEntries (before : String) (first : Bool) : List (RawText × Json) → String
  | [] => before
  | (k, v) :: r =>
    let t := asciiPoints (if first then before else before.push ',') k.points
    asciiRawEntries (asciiAfter (t.push ':') v) false r

end

/-- Data as a text. -/
def ascii (j : Json) : String := asciiAfter "" j

end Json

end Sieve
