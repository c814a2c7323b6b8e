import Sieve.Number.Binary64
import Sieve.Text.Surrogate
import Sieve.Uuid
/-!
# JSON texts

JSON data with exact integers, doubles, and objects that keep the order of their keys. Besides the
standard, the words `NaN`, `Infinity` and `-Infinity` are doubles. Texts are escaped by their UTF-16
units, so an escape may write a surrogate that stands alone: texts and keys that hold one are data of
their own.

* `Json.write` writes without any spaces and keeps characters outside ASCII as they are;
  `Json.isWritable` and `Json.isWhole` are the bounds of writing as octets;
* `Json.read?` reads; the nesting it admits is bounded, and so is the length of an integer. Of two
  entries of an object with the same key the later value counts, at the place of the earlier one.

Main statements: `skipSpace_of_head`, `ofEntries_whole`.
-/

namespace Sieve

/-- JSON data. -/
inductive Json
  /-- Nothing. -/
  | null
  /-- A truth value. -/
  | bool (b : Bool)
  /-- An integer. -/
  | int (i : Int)
  /-- A double. -/
  | float (x : Binary64)
  /-- A text. -/
  | text (s : String)
  /-- A text with surrogates. -/
  | broken (t : BrokenText)
  /-- An array. -/
  | array (xs : List Json)
  /-- An object, in the order of its keys. -/
  | object (entries : List (String × Json))
  /-- An object some of whose keys have surrogates. -/
  | brokenObject (entries : List (RawText × Json))
  deriving Inhabited

namespace Json

/-- A text as data. -/
def ofRaw : RawText → Json
  | .whole s => text s
  | .broken t => broken t

/-- The entries whose keys are whole, if all keys are. -/
def wholeEntries? : List (RawText × Json) → Option (List (String × Json))
  | [] => some []
  | (.whole k, v) :: r => (wholeEntries? r).map ((k, v) :: ·)
  | (.broken _, _) :: _ => none

/-- The object of some entries. -/
def ofEntries (es : List (RawText × Json)) : Json :=
  match wholeEntries? es with
  | some es => object es
  | none => brokenObject es

/-- Entries with whole keys make an object as they are. -/
@[simp] theorem ofEntries_whole (es : List (String × Json)) :
    ofEntries (es.map fun e => (.whole e.1, e.2)) = object es := by
  have hentries : wholeEntries? (es.map fun e => (.whole e.1, e.2)) = some es := by
    induction es with
    | nil => rfl
    | cons e es ih => simp [wholeEntries?, ih]
  rw [ofEntries, hentries]

/-! ### Writing -/

/-- A character inside a written text. -/
def writeChar (c : Char) : List Char :=
  if c = '"' then ['\\', '"']
  else if c = '\\' then ['\\', '\\']
  else if c = '\n' then ['\\', 'n']
  else if c = '\r' then ['\\', 'r']
  else if c = '\t' then ['\\', 't']
  else if c = '\x0c' then ['\\', 'f']
  else if c = '\x08' then ['\\', 'b']
  else if c.toNat < 32 then
    '\\' :: 'u' :: '0' :: '0' :: [Nat.digitChar (c.toNat / 16), Nat.digitChar (c.toNat % 16)]
  else [c]

/-- A text between double quotes. -/
def writeText (s : List Char) : List Char :=
  '"' :: s.flatMap writeChar ++ ['"']

/-- The escape of a UTF-16 unit. -/
def asciiUnit (n : Nat) : List Char :=
  '\\' :: 'u' :: Uuid.hexDigits 4 n

/-- A code point inside a written text; a surrogate is escaped. -/
def writePoint : CodePoint → List Char
  | .char c => writeChar c
  | .surrogate s => asciiUnit s.code

/-- A text of code points between double quotes. -/
def writePoints (ps : List CodePoint) : List Char :=
  '"' :: ps.flatMap writePoint ++ ['"']

/-- A double; the infinities and what is not a number have words of their own. -/
def writeFloat : Binary64 → List Char
  | .nan => "NaN".toList
  | .infinite negative => (if negative then "-Infinity" else "Infinity").toList
  | x => x.text

mutual

/-- The text of JSON data. -/
def write : Json → List Char
  | null => "null".toList
  | bool b => (if b then "true" else "false").toList
  | int i => Numeral.integerText i
  | float x => writeFloat x
  | text s => writeText s.toList
  | broken t => writePoints t.points
  | array [] => ['[', ']']
  | array (x :: r) => '[' :: write x ++ writeItems r
  | object [] => ['\x7b', '\x7d']
  | object ((k, v) :: r) => '\x7b' :: writeText k.toList ++ ':' :: write v ++ writeEntries r
  | brokenObject [] => ['\x7b', '\x7d']
  | brokenObject ((k, v) :: r) =>
    '\x7b' :: writePoints k.points ++ ':' :: write v ++ writeRawEntries r

/-- The items after the first one of an array, and its end. -/
def writeItems : List Json → List Char
  | [] => [']']
  | x :: r => ',' :: write x ++ writeItems r

/-- The entries after the first one of an object, and its end. -/
def writeEntries : List (String × Json) → List Char
  | [] => ['\x7d']
  | (k, v) :: r => ',' :: writeText k.toList ++ ':' :: write v ++ writeEntries r

/-- The entries after the first one of an object with surrogates in its keys, and its end. -/
def writeRawEntries : List (RawText × Json) → List Char
  | [] => ['\x7d']
  | (k, v) :: r => ',' :: writePoints k.points ++ ':' :: write v ++ writeRawEntries r

end

mutual

/-- Whether no integer in data has too many digits to be written. -/
def isWritable : Json → Bool
  | int i => Numeral.isShort i
  | array xs => itemsWritable xs
  | object es => entriesWritable es
  | brokenObject es => rawEntriesWritable es
  | _ => true

/-- Whether items can be written. -/
def itemsWritable : List Json → Bool
  | [] => true
  | x :: r => isWritable x && itemsWritable r

/-- Whether entries can be written. -/
def entriesWritable : List (String × Json) → Bool
  | [] => true
  | (_, v) :: r => isWritable v && entriesWritable r

/-- Whether entries of an object with surrogates in its keys can be written. -/
def rawEntriesWritable : List (RawText × Json) → Bool
  | [] => true
  | (_, v) :: r => isWritable v && rawEntriesWritable r

end

mutual

/-- Whether no text in data has surrogates, so that what is written has octets. -/
def isWhole : Json → Bool
  | broken _ | brokenObject _ => false
  | array xs => itemsWhole xs
  | object es => entriesWhole es
  | _ => true

/-- Whether no text in items has surrogates. -/
def itemsWhole : List Json → Bool
  | [] => true
  | x :: r => isWhole x && itemsWhole r

/-- Whether no text in entries has surrogates. -/
def entriesWhole : List (String × Json) → Bool
  | [] => true
  | (_, v) :: r => isWhole v && entriesWhole r

end

/-! ### Reading -/

/-- Whether the character may stand between the parts of a JSON text. -/
def isSpace (c : Char) : Bool :=
  c == ' ' || c == '\t' || c == '\n' || c == '\r'

/-- The text without spaces in front. -/
def skipSpace (s : List Char) : List Char :=
  s.dropWhile isSpace

theorem skipSpace_of_head {c : Char} {r : List Char} (h : isSpace c = false) :
    skipSpace (c :: r) = c :: r := by
  simp [skipSpace, h]

/-- The value of a hexadecimal digit. -/
def hexDigit? (c : Char) : Option Nat :=
  if c.isDigit then some (c.toNat - '0'.toNat)
  else if 'a' ≤ c ∧ c ≤ 'f' then some (c.toNat - 'a'.toNat + 10)
  else if 'A' ≤ c ∧ c ≤ 'F' then some (c.toNat - 'A'.toNat + 10)
  else none

/-- The number written by the first four characters in hexadecimal. -/
def hexUnit? (s : List Char) : Option Nat :=
  match s with
  | a :: b :: c :: d :: _ => do
    some ((((← hexDigit? a) * 16 + (← hexDigit? b)) * 16 + (← hexDigit? c)) * 16 + (← hexDigit? d))
  | _ => none

/-- The unit that the next escape writes, if there is one. -/
def nextUnit? : List Char → Option (Option Nat)
  | '\\' :: 'u' :: r => (hexUnit? r).map some
  | _ => some none

/-- The code point that an escape writes, and how many characters behind the backslash it takes.
Two escapes of the surrogates of a character write that character. -/
def escaped? : List Char → Option (CodePoint × Nat)
  | 'u' :: r => do
    let high ← hexUnit? r
    if 0xD800 ≤ high ∧ high < 0xDC00 then
      match ← nextUnit? (r.drop 4) with
      | some low =>
        if 0xDC00 ≤ low ∧ low < 0xE000 then
          (CodePoint.ofNat? (0x10000 + (high - 0xD800) * 0x400 + (low - 0xDC00))).map (·, 11)
        else (CodePoint.ofNat? high).map (·, 5)
      | none => (CodePoint.ofNat? high).map (·, 5)
    else (CodePoint.ofNat? high).map (·, 5)
  | 'n' :: _ => some (.char '\n', 1)
  | 'r' :: _ => some (.char '\r', 1)
  | 't' :: _ => some (.char '\t', 1)
  | 'f' :: _ => some (.char '\x0c', 1)
  | 'b' :: _ => some (.char '\x08', 1)
  | c :: _ => if c = '"' ∨ c = '\\' ∨ c = '/' then some (.char c, 1) else none
  | [] => none

/-- Reads the rest of a text behind its opening quote; the first `skip` characters belong to an
escape already read. -/
def textFrom (skip : Nat) : List Char → Option (List CodePoint × List Char)
  | [] => none
  | c :: r =>
    match skip with
    | skip + 1 => textFrom skip r
    | 0 =>
      if c = '"' then some ([], r)
      else if c = '\\' then
        match escaped? r with
        | some (d, n) => (textFrom n r).map fun t => (d :: t.1, t.2)
        | none => none
      else if c.toNat < 32 then none
      else (textFrom 0 r).map fun t => (.char c :: t.1, t.2)

/-- Reads the digits behind a decimal point, if there is a point with digits. -/
def fractionPart (s : List Char) : List Char × List Char :=
  match s with
  | '.' :: r =>
    let ds := r.takeWhile Numeral.isDigit
    if ds.isEmpty then ([], s) else (ds, r.dropWhile Numeral.isDigit)
  | _ => ([], s)

/-- Reads an exponent, if there is one with digits. -/
def exponentPart (s : List Char) : Option Int × List Char :=
  match s with
  | c :: r =>
    if c = 'e' ∨ c = 'E' then
      let (negative, t) := Numeral.sign r
      let ds := t.takeWhile Numeral.isDigit
      if ds.isEmpty then (none, s)
      else (some (Numeral.signed negative (Numeral.ofDigits ds)), t.dropWhile Numeral.isDigit)
    else (none, s)
  | [] => (none, s)

/-- Reads a number: an integer of bounded length, or a double if it has a fraction or an
exponent. -/
def numberFrom? (s : List Char) : Option (Json × List Char) :=
  let (negative, t) := match s with
    | '-' :: t => (true, t)
    | t => (false, t)
  let whole := match t with
    | '0' :: _ => ['0']
    | t => t.takeWhile Numeral.isDigit
  if whole.isEmpty then none
  else
    let (fraction, r) := fractionPart (t.drop whole.length)
    let (exponent, r) := exponentPart r
    if fraction.isEmpty && exponent.isNone then
      if whole.length ≤ Numeral.maxDigits then
        some (.int (Numeral.signed negative (Numeral.ofDigits whole)), r)
      else none
    else
      some (.float (.ofScientific ⟨negative, Numeral.ofDigits (whole ++ fraction),
        exponent.getD 0 - fraction.length⟩), r)

/-- The rest of a text that starts with a word. -/
def afterWord? (word : String) (s : List Char) : Option (List Char) :=
  if word.toList.isPrefixOf s then some (s.drop word.toList.length) else none

/-- The words that stand for data. -/
def words : List (String × Json) :=
  [("null", .null), ("true", .bool true), ("false", .bool false), ("NaN", .float .nan),
    ("Infinity", .float (.infinite false)), ("-Infinity", .float (.infinite true))]

/-- Reads a word or a number. -/
def atomFrom? (s : List Char) : Option (Json × List Char) :=
  match words.findSome? fun w => (afterWord? w.1 s).map fun r => (w.2, r) with
  | some t => some t
  | none => numberFrom? s

/-- Reads items with commas between them up to a closing bracket. -/
def itemsFrom? {α : Type} (item : List Char → Option (α × List Char)) (close : Char) :
    Nat → List Char → Option (List α × List Char)
  | 0, _ => none
  | fuel + 1, s => do
    let (x, r) ← item s
    match skipSpace r with
    | c :: r =>
      if c = close then some ([x], r)
      else if c = ',' then (itemsFrom? item close fuel (skipSpace r)).map fun t => (x :: t.1, t.2)
      else none
    | [] => none

/-- Reads a bracketed list of items, possibly empty, behind its opening bracket. -/
def bracketFrom? {α : Type} (item : List Char → Option (α × List Char)) (close : Char)
    (s : List Char) : Option (List α × List Char) :=
  match skipSpace s with
  | c :: r => if c = close then some ([], r) else itemsFrom? item close (r.length + 1) (c :: r)
  | [] => none

/-- Reads an entry of an object. -/
def entryFrom? (value : List Char → Option (Json × List Char)) :
    List Char → Option ((RawText × Json) × List Char)
  | '"' :: r => do
    let (k, r) ← textFrom 0 r
    match skipSpace r with
    | ':' :: r =>
      let (v, r) ← value (skipSpace r)
      some ((RawText.ofPoints k, v), r)
    | _ => none
  | _ => none

/-- The entries with the value of a key replaced, or with the key added at the end. -/
def insert {α : Type} (entries : List (RawText × α)) (k : RawText) (v : α) : List (RawText × α) :=
  match entries with
  | [] => [(k, v)]
  | (l, w) :: r => if l = k then (k, v) :: r else (l, w) :: insert r k v

/-- Reads data nested at most `depth` deep. -/
def valueFrom? : Nat → List Char → Option (Json × List Char)
  | 0, _ => none
  | depth + 1, s =>
    match s with
    | '"' :: r => (textFrom 0 r).map fun t => (ofRaw (.ofPoints t.1), t.2)
    | '[' :: r => (bracketFrom? (valueFrom? depth) ']' r).map fun t => (.array t.1, t.2)
    | '\x7b' :: r =>
      (bracketFrom? (entryFrom? (valueFrom? depth)) '\x7d' r).map fun t =>
        (ofEntries (t.1.foldl (fun es e => insert es e.1 e.2) []), t.2)
    | s => atomFrom? s

/-- How deep data may be nested. -/
def maxDepth : Nat := 1000

/-- The data that a text writes, with spaces around. -/
def read? (s : String) : Option Json := do
  let (v, r) ← valueFrom? maxDepth (skipSpace s.toList)
  if (skipSpace r).isEmpty then some v else none

end Json

end Sieve
