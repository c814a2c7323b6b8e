import Sieve.Base64
import Sieve.Calendar.Iso
import Sieve.Json
import Sieve.Value.Order
import Sieve.Value.Text
/-!
# Cursor tokens

A cursor is the values of the sort fields of a row, in order. It travels as a token: JSON in base
64, in which values that JSON does not know are tagged with the name of their type. A token from
outside may hold anything that JSON may be, texts with surrogates included, and what is found under a
tag may fail to be a value of the type in many ways.

* `Value.tagged` and `Json.untag` lead from values to tagged JSON and back;
* `Cursor.encode` writes a token, `Cursor.read` reads one or fails in some way;
* `Cursor.decode` is the program's reader: it counts the failures of `Cursor.caught` as that of a
  token that is no cursor.

Main statements: `whole_raw`, `raw_inj`, `untag_text`, `dump_eq_ok_iff`.
-/

namespace Sieve

/-- The values of sort fields, in order. -/
abbrev Cursor := List (String × Value)

/-- The values that a token holds, each for a text that need not be the name of a field. -/
abbrev RawCursor := List (RawText × Value)

/-- The cursor as the values that a token holds. -/
def Cursor.raw (c : Cursor) : RawCursor :=
  c.map fun e => (.whole e.1, e.2)

/-- The values for texts without surrogates, which are those that fields are looked up by. -/
def RawCursor.whole (c : RawCursor) : Cursor :=
  c.filterMap fun e => e.1.whole?.map (·, e.2)

@[simp] theorem RawCursor.whole_raw (c : Cursor) : RawCursor.whole c.raw = c := by
  rw [RawCursor.whole, Cursor.raw, List.filterMap_map]
  exact List.filterMap_some

/-- No two cursors hold the same values. -/
theorem Cursor.raw_inj {c d : Cursor} : c.raw = d.raw ↔ c = d :=
  ⟨fun h => by rw [← RawCursor.whole_raw c, h, RawCursor.whole_raw], fun h => h ▸ rfl⟩

/-! ### Tags -/

/-- A tagged value. -/
def Json.tag (type : String) (value : Json) : Json :=
  .object [("$t", .text type), ("$v", value)]

mutual

/-- The value as tagged JSON. -/
def Value.tagged : Value → Except Error Json
  | .null => .ok .null
  | .bool b => .ok (.bool b)
  | .int i => .ok (.int i)
  | .float x => .ok (.float x)
  | .text s => .ok (.text s)
  | .broken t => .ok (.broken t)
  | .timestamp t => .ok (.tag "datetime" (.text (String.ofList (Iso.timestampText 'T' t))))
  | .date d => .ok (.tag "date" (.text (String.ofList (Iso.dateText d))))
  | .time t => .ok (.tag "time" (.text (String.ofList (Iso.timeText t))))
  | .decimal d => .ok (.tag "decimal" (.text (String.ofList d.text)))
  | .uuid u => .ok (.tag "uuid" (.text (String.ofList u.text)))
  | .tuple xs => do return .tag "tuple" (.array (← Value.taggedItems xs))
  | .list xs => do return .array (← Value.taggedItems xs)
  | .map es => do return .tag "map" (.array (← Value.taggedEntries es))
  | .member v => Value.tagged v
  | .bytes b => .error (.unencodable (.bytes b))
  | .set xs => .error (.unencodable (.set xs))
  | .object kind as => .error (.unencodable (.object kind as))
  | .zone o => .error (.unencodable (.zone o))
  | .feature kind => .error (.unencodable (.feature kind))

/-- Values as tagged JSON, in order. -/
def Value.taggedItems : List Value → Except Error (List Json)
  | [] => .ok []
  | x :: r => do
    let j ← Value.tagged x
    let js ← Value.taggedItems r
    return j :: js

/-- Entries as tagged JSON, in order; a key is written as its text. -/
def Value.taggedEntries : List (Value × Value) → Except Error (List Json)
  | [] => .ok []
  | (k, v) :: r => do
    let k ← k.toRaw
    let j ← Value.tagged v
    let js ← Value.taggedEntries r
    return .array [.ofRaw k, j] :: js

end

namespace Json

/-- What was read, or else a failure. -/
def required {α : Type} (e : Error) : Option α → Except Error α
  | some a => .ok a
  | none => .error e

/-- The text that JSON is, for what is read from texts only. -/
def rawText : Json → Except Error RawText
  | text s => .ok (.whole s)
  | broken t => .ok (.broken t)
  | _ => .error .mismatch

/-! ### Decimals from their parts -/

/-- The integer or truth value that JSON is, if it fits into a machine word. -/
def machineInt : Json → Except Error Int
  | int i => if -9223372036854775808 ≤ i ∧ i < 9223372036854775808 then .ok i else .error .overflow
  | bool b => .ok (if b then 1 else 0)
  | _ => .error .malformed

/-- The digit that JSON is. -/
def digit (j : Json) : Except Error Char := do
  let i ← j.machineInt
  if 0 ≤ i ∧ i ≤ 9 then .ok (Nat.digitChar i.toNat) else .error .malformed

/-- The digits that an array is. -/
def digits : Json → Except Error (List Char)
  | array xs => xs.mapM digit
  | _ => .error .malformed

/-- The sign of a number given as 0 or 1. -/
def sign (j : Json) : Except Error (List Char) := do
  match ← j.machineInt with
  | 0 => .ok []
  | 1 => .ok ['-']
  | _ => .error .malformed

/-- The decimal that a text writes. -/
def readDecimal (s : List Char) : Except Error Decimal :=
  required .invalidOperation (Decimal.read? (String.ofList s))

/-- A decimal number given by sign, digits, and exponent or kind. -/
def decimalParts (s ds e : Json) : Except Error Decimal := do
  let s ← s.sign
  match e with
  | text "F" => do
    let _ ← ds.digits
    return .infinite !s.isEmpty
  | text "n" => do readDecimal (s ++ "NaN".toList ++ (← ds.digits))
  | text "N" => do readDecimal (s ++ "sNaN".toList ++ (← ds.digits))
  | e => do
    let e ← e.machineInt
    let ds ← ds.digits
    readDecimal (s ++ (if ds.isEmpty then ['0'] else ds) ++ 'E' :: Numeral.integerText e)

/-! ### Values under a tag -/

/-- A decimal number given in one of the ways that are understood. -/
def decimal : Json → Except Error Decimal
  | text s => required .invalidOperation (Decimal.read? s)
  | broken _ => .error .invalidOperation
  | int i => .ok (.ofInt i)
  | bool b => .ok (.ofInt (if b then 1 else 0))
  | float x => .ok (.ofBinary64 x)
  | array [s, ds, e] => decimalParts s ds e
  | array _ => .error .malformed
  | null | object _ | brokenObject _ => .error .mismatch

/-- The identifier that a text writes; other data than texts has nothing to read. -/
def uuid : Json → Except Error Uuid
  | text s => required .malformed (Uuid.read? s)
  | broken _ => .error .malformed
  | null => .error .mismatch
  | _ => .error .missingAttribute

/-- The value of an atom with the tag of its type. -/
def atom (type : String) (j : Json) : Except Error Value :=
  match type with
  | "datetime" => do
    return .timestamp (← required .malformed (Iso.readRawTimestamp? (← j.rawText)))
  | "date" => do return .date (← required .malformed ((← j.rawText).whole? >>= Iso.readDate?))
  | "time" => do return .time (← required .malformed ((← j.rawText).whole? >>= Iso.readTime?))
  | "decimal" => do return .decimal (← j.decimal)
  | "uuid" => do return .uuid (← j.uuid)
  | _ => .error .malformed

/-- The texts that JSON other than an array goes through: the characters of a text, the keys of an
object. -/
def names? : Json → Option (List RawText)
  | text s => some (RawText.whole s).singles
  | broken t => some (RawText.broken t).singles
  | object es => some (es.map fun e => .whole e.1)
  | brokenObject es => some (es.map (·.1))
  | _ => none

/-- The key that a scalar is; arrays and objects can change, and are none. -/
def key : Json → Except Error Value
  | null => .ok .null
  | bool b => .ok (.bool b)
  | int i => .ok (.int i)
  | float x => .ok (.float x)
  | text s => .ok (.text s)
  | broken t => .ok (.broken t)
  | array _ | object _ | brokenObject _ => .error .mismatch

/-- The pair that two texts are. -/
def textPair : List RawText → Except Error (Value × Value)
  | [k, v] => .ok (.ofRaw k, .ofRaw v)
  | _ => .error .malformed

/-- The pair that JSON other than an array of two is. -/
def flatPair (j : Json) : Except Error (Value × Value) :=
  match j, j.names? with
  | _, some names => textPair names
  | array _, none => .error .malformed
  | _, none => .error .mismatch

/-- Whether two scalars are the same key of a map. There is one NaN only. -/
def sameKey (a b : Value) : Bool :=
  match a, b with
  | .float .nan, .float .nan => true
  | a, b => match a.equal b with
    | .ok r => r
    | .error _ => false

/-- The entries with a value replaced, or with a new entry at the end. -/
def putEntry (es : List (Value × Value)) (k v : Value) : List (Value × Value) :=
  match es with
  | [] => [(k, v)]
  | (l, w) :: r => if sameKey l k then (l, v) :: r else (l, w) :: putEntry r k v

/-- The map of some pairs; of two pairs with the same key the later value counts, at the place of
the earlier one. -/
def mapOf (pairs : List (Value × Value)) : Value :=
  .map (pairs.foldl (fun es e => putEntry es e.1 e.2) [])

/-- The value of JSON other than an array with the tag of a type. The items of a tuple and the pairs
of a map may also be the characters of a text or the keys of an object. -/
def flat (type : String) (j : Json) : Except Error Value :=
  if type = "tuple" then do
    return .tuple ((← required .mismatch j.names?).map .ofRaw)
  else if type = "map" then do
    return mapOf (← (← required .mismatch j.names?).mapM fun t => textPair t.singles)
  else atom type j

mutual

/-- The value of tagged JSON. -/
def untag : Json → Except Error Value
  | null => .ok .null
  | bool b => .ok (.bool b)
  | int i => .ok (.int i)
  | float x => .ok (.float x)
  | text s => .ok (.text s)
  | broken t => .ok (.broken t)
  | array xs => do return .list (← untagItems xs)
  | object [("$t", type), ("$v", v)] => untagAs type v
  | object [("$v", v), ("$t", type)] => untagAs type v
  | object _ | brokenObject _ => .error .malformed

/-- The value of JSON with a tag. An array or an object is looked up in vain among the types. -/
def untagAs (type : Json) (j : Json) : Except Error Value :=
  match type, j with
  | text type, array xs => do
    if type = "tuple" then return .tuple (← untagItems xs)
    else if type = "map" then return mapOf (← untagPairs xs)
    else atom type (array xs)
  | text type, j => flat type j
  | array _, _ | object _, _ | brokenObject _, _ => .error .mismatch
  | _, _ => .error .malformed

/-- The values of tagged JSON, in order. -/
def untagItems : List Json → Except Error (List Value)
  | [] => .ok []
  | j :: r => do
    let v ← untag j
    let vs ← untagItems r
    return v :: vs

/-- The entries of a map: pairs of a key and tagged JSON, or of two texts. -/
def untagPairs : List Json → Except Error (List (Value × Value))
  | [] => .ok []
  | array [k, v] :: r => do
    let v ← untag v
    let k ← key k
    let es ← untagPairs r
    return (k, v) :: es
  | j :: r => do
    let e ← flatPair j
    let es ← untagPairs r
    return e :: es

end

@[simp] theorem untag_text (s : String) : untag (text s) = .ok (.text s) := by
  simp [untag]

/-- The text of data, which integers may be too long for, and which has no octets with surrogates
in it. -/
def dump (j : Json) : Except Error String :=
  if !j.isWritable then .error .malformed
  else if !j.isWhole then .error .unpaired
  else .ok (String.ofList j.write)

theorem dump_eq_ok_iff {j : Json} {s : String} :
    dump j = .ok s ↔ j.isWritable = true ∧ j.isWhole = true ∧ String.ofList j.write = s := by
  unfold dump
  cases j.isWritable <;> cases j.isWhole <;> simp

end Json

namespace Cursor

/-! ### Tokens -/

/-- The cursor as JSON: a list of pairs. -/
def pairs (c : Cursor) : Except Error (List Json) :=
  c.mapM fun e => do return .array [.text e.1, ← e.2.tagged]

/-- The token of a cursor. -/
def encode (c : Cursor) : Except Error String := do
  let text ← (Json.array (← c.pairs)).dump
  return String.ofList (Base64.encode text.toUTF8.toList)

/-- The cursor with the value of a field replaced, or with a new field at the end. -/
def put (c : Cursor) (field : String) (v : Value) : Cursor :=
  match c with
  | [] => [(field, v)]
  | (f, w) :: r => if f = field then (f, v) :: r else (f, w) :: put r field v

/-- The text and the value of a pair. -/
def pair : Json → Except Error (RawText × Value)
  | .array [.text field, v] => do return (.whole field, ← v.untag)
  | .array [.broken t, v] => do return (.broken t, ← v.untag)
  | _ => .error .malformed

/-- The values that JSON holds: pairs of a text and tagged JSON. -/
def ofJson : Json → Except Error RawCursor
  | .array xs => do return (← xs.mapM pair).foldl (fun c e => Json.insert c e.1 e.2) []
  | _ => .error .malformed

/-- The values that a token holds, or the first failure of reading it. -/
def read (token : String) : Except Error RawCursor := do
  let octets ← Json.required .malformed (Base64.decode? token.toList)
  let text ← Json.required .malformed (String.fromUTF8? ⟨octets.toArray⟩)
  ofJson (← Json.required .malformed (Json.read? text))

/-- The kinds of faults that make a token an invalid one. -/
def caught : List Fault :=
  [.badValue, .badType, .overflow, .divisionByZero, .invalidOperation, .badCharacter,
    .missingAttribute, .endless]

/-- The values that a token holds; whatever fails to be one is an invalid cursor. -/
def decode (token : String) : Except Error RawCursor :=
  match read token with
  | .ok c => .ok c
  | .error e =>
    if e.fault?.any caught.contains then .error (.invalidCursor (.text token)) else .error e

/-- The values of a token given as data; only texts are tokens. -/
def decodeValue : Value → Except Error RawCursor
  | .text token => decode token
  | v => .error (.invalidCursor v)

end Cursor

end Sieve
