import Sieve.Number.Decimal
import Sieve.Calendar.Iso
import Sieve.Text.Quoted
import Sieve.Text.Surrogate
/-!
# Values

The data that rows, filters and parameters hold. A value is a scalar, a collection of values, a
member of an enumeration, an object with named attributes, or a feature of another value that has no
content of its own. Texts with surrogates come from tokens only: parameters, rows and declarations
hold whole texts.

* `truthy` says which values count as set;
* `toText` writes a value for reading, `quoted` writes it so that its kind can be seen;
  `isWritable` and `isQuotable` say whether the integers in it are short enough for that;
* `lookup?` finds the value of a text key of a map.

Main statements: `isNull_iff`, `lookup?_cons_self`, `render_text`.
-/

namespace Sieve

/-- A piece of data. -/
inductive Value
  /-- Nothing. -/
  | null
  /-- A truth value. -/
  | bool (b : Bool)
  /-- An integer of any size. -/
  | int (i : Int)
  /-- A double. -/
  | float (x : Binary64)
  /-- A decimal number. -/
  | decimal (d : Decimal)
  /-- A text. -/
  | text (s : String)
  /-- A text with surrogates. -/
  | broken (t : BrokenText)
  /-- Octets. -/
  | bytes (b : List UInt8)
  /-- A day. -/
  | date (d : Date)
  /-- A time of day. -/
  | time (t : TimeOfDay)
  /-- A point in time. -/
  | timestamp (t : Timestamp)
  /-- An identifier. -/
  | uuid (u : Uuid)
  /-- A list. -/
  | list (xs : List Value)
  /-- A tuple; it differs from a list of the same items. -/
  | tuple (xs : List Value)
  /-- A set, in the order its items were added. -/
  | set (xs : List Value)
  /-- A map from keys to values, in the order the keys were added. -/
  | map (entries : List (Value × Value))
  /-- A member of an enumeration, with its value. -/
  | member (v : Value)
  /-- An object of some kind with attributes. -/
  | object (kind : String) (attributes : List (String × Value))
  /-- A distance from universal time. -/
  | zone (o : Offset)
  /-- A feature of a value, such as one of its operations; only its kind is known. -/
  | feature (kind : String)
  deriving Inhabited

namespace Value

/-- Whether a value counts as set: not null, not false, not zero, not empty. -/
def truthy : Value → Bool
  | null => false
  | bool b => b
  | int i => i != 0
  | float x => !x.isZero
  | decimal d => !d.isZero
  | text s => !s.isEmpty
  | bytes b => !b.isEmpty
  | list xs | tuple xs | set xs => !xs.isEmpty
  | map es => !es.isEmpty
  | _ => true

/-- Whether a value is null. -/
def isNull : Value → Bool
  | null => true
  | _ => false

@[simp] theorem isNull_iff {v : Value} : v.isNull = true ↔ v = null := by
  cases v <;> simp [isNull]

/-- A text as a value. -/
def ofRaw : RawText → Value
  | .whole s => text s
  | .broken t => broken t

/-- A map with text keys. -/
def record (entries : List (String × Value)) : Value :=
  .map (entries.map fun e => (.text e.1, e.2))

/-- The value of a text key among the entries of a map. -/
def lookup? (key : String) : List (Value × Value) → Option Value
  | [] => none
  | (.text k, v) :: r => if k = key then some v else lookup? key r
  | _ :: r => lookup? key r

@[simp] theorem lookup?_cons_self (key : String) (v : Value) (r : List (Value × Value)) :
    lookup? key ((.text key, v) :: r) = some v := by
  simp [lookup?]

/-- The items of a list or a tuple. -/
def sequence? : Value → Option (List Value)
  | list xs | tuple xs => some xs
  | _ => none

/-! ### Text of values -/

/-- Texts with a comma and a space between them. -/
def commaSeparated : List (List Char) → List Char
  | [] => []
  | [x] => x
  | x :: r => x ++ ',' :: ' ' :: commaSeparated r

/-- The parts of a clock reading: the second is left out if it and the fraction are zero, the
fraction if it is zero. -/
def clockParts (c : Clock) : List Nat :=
  [c.hour, c.minute] ++
    if c.microsecond ≠ 0 then [c.second, c.microsecond]
    else if c.second ≠ 0 then [c.second]
    else []

/-- A span of time, split into days, seconds and microseconds. -/
def quotedSpan (microseconds : Int) : List Char :=
  let days := microseconds.fdiv dayLength
  let rest := (microseconds.fmod dayLength).toNat
  let parts : List (String × Int) :=
    [("days", days), ("seconds", (rest / 1000000 : Nat)), ("microseconds", (rest % 1000000 : Nat))]
  let shown := (parts.filter fun p => p.2 != 0).map fun p =>
    p.1.toList ++ '=' :: Numeral.integerText p.2
  "datetime.timedelta(".toList ++ (if shown.isEmpty then ['0'] else commaSeparated shown) ++ [')']

/-- A distance from universal time; none at all has a name. -/
def quotedZone (o : Offset) : List Char :=
  if o.microseconds = 0 then "datetime.timezone.utc".toList
  else "datetime.timezone(".toList ++ quotedSpan o.microseconds ++ [')']

/-- An offset, as the last argument of a reading. -/
def quotedOffset : Option Offset → List (List Char)
  | none => []
  | some o => ["tzinfo=".toList ++ quotedZone o]

/-- A day, a time or a point in time with its parts as arguments. -/
def quotedParts (kind : String) (parts : List Nat) (offset : Option Offset) : List Char :=
  kind.toList ++ '(' :: commaSeparated (parts.map Numeral.digitsOf ++ quotedOffset offset) ++ [')']

/-- A day with its parts as arguments. -/
def quotedDate (d : Date) : List Char :=
  quotedParts "datetime.date" [d.year, d.month, d.day] none

mutual

/-- The text of a value in which its kind can be seen: texts are quoted, containers bracketed. -/
def quoted : Value → List Char
  | null => "None".toList
  | bool b => (if b then "True" else "False").toList
  | int i => Numeral.integerText i
  | float x => x.text
  | decimal d => "Decimal('".toList ++ d.text ++ "')".toList
  | text s => Text.quote s.toList
  | broken t => Text.quotePoints t.points
  | bytes b => Text.quoteOctets b
  | date d => quotedDate d
  | time t => quotedParts "datetime.time" (clockParts t.clock) t.offset
  | timestamp t =>
    quotedParts "datetime.datetime"
      ([t.date.year, t.date.month, t.date.day] ++ clockParts t.clock) t.offset
  | uuid u => "UUID('".toList ++ u.text ++ "')".toList
  | list xs => '[' :: commaSeparated (quotedItems xs) ++ [']']
  | tuple [x] => '(' :: quoted x ++ [',', ')']
  | tuple xs => '(' :: commaSeparated (quotedItems xs) ++ [')']
  | set [] => "set()".toList
  | set xs => '\x7b' :: commaSeparated (quotedItems xs) ++ ['\x7d']
  | map es => '\x7b' :: commaSeparated (quotedEntries es) ++ ['\x7d']
  | member v => '<' :: quoted v ++ ['>']
  | object kind as => kind.toList ++ '(' :: commaSeparated (quotedAttributes as) ++ [')']
  | zone o => quotedZone o
  | feature kind => '<' :: kind.toList ++ ['>']

/-- The quoted items of a collection. -/
def quotedItems : List Value → List (List Char)
  | [] => []
  | v :: r => quoted v :: quotedItems r

/-- The quoted entries of a map. -/
def quotedEntries : List (Value × Value) → List (List Char)
  | [] => []
  | (k, v) :: r => (quoted k ++ ':' :: ' ' :: quoted v) :: quotedEntries r

/-- The quoted attributes of an object. -/
def quotedAttributes : List (String × Value) → List (List Char)
  | [] => []
  | (k, v) :: r => (k.toList ++ '=' :: quoted v) :: quotedAttributes r

end

/-- The text of a value for reading: texts, numbers, days and identifiers as such, containers
quoted. A surrogate is shown as the character for what cannot be shown. -/
def toText : Value → List Char
  | decimal d => d.text
  | text s => s.toList
  | broken t => t.points.map CodePoint.shown
  | date d => Iso.dateText d
  | time t => Iso.timeText t
  | timestamp t => Iso.timestampText ' ' t
  | uuid u => u.text
  | zone o => "UTC".toList ++ if o.microseconds = 0 then [] else Iso.offsetText o
  | v => quoted v

/-- The text of a value for reading. -/
def render (v : Value) : String :=
  String.ofList v.toText

/-- The quoted text of a value. -/
def renderQuoted (v : Value) : String :=
  String.ofList v.quoted

@[simp] theorem toText_text (s : String) : toText (text s) = s.toList := rfl

@[simp] theorem toText_int (i : Int) : toText (int i) = Numeral.integerText i := rfl

@[simp] theorem toText_bool (b : Bool) : toText (bool b) = (if b then "True" else "False").toList :=
  rfl

@[simp] theorem render_text (s : String) : render (text s) = s := by
  simp [render]

mutual

/-- Whether a value can be quoted: no integer in it has too many digits. -/
def isQuotable : Value → Bool
  | int i => Numeral.isShort i
  | list xs | tuple xs | set xs => itemsQuotable xs
  | map es => entriesQuotable es
  | member v => isQuotable v
  | object _ as => attributesQuotable as
  | _ => true

/-- Whether the items of a collection can be quoted. -/
def itemsQuotable : List Value → Bool
  | [] => true
  | v :: r => isQuotable v && itemsQuotable r

/-- Whether the entries of a map can be quoted. -/
def entriesQuotable : List (Value × Value) → Bool
  | [] => true
  | (k, v) :: r => isQuotable k && isQuotable v && entriesQuotable r

/-- Whether the attributes of an object can be quoted. -/
def attributesQuotable : List (String × Value) → Bool
  | [] => true
  | (_, v) :: r => isQuotable v && attributesQuotable r

end

/-- Whether the text of a value can be written; that of a member of an enumeration is its name. -/
def isWritable : Value → Bool
  | member _ => true
  | v => v.isQuotable

@[simp] theorem isWritable_text (s : String) : isWritable (text s) = true := by
  simp [isWritable, isQuotable]

@[simp] theorem isWritable_int (i : Int) : isWritable (int i) = Numeral.isShort i := by
  simp [isWritable, isQuotable]

/-- The name of the kind of a value, as error messages give it. -/
def kindName : Value → String
  | null => "NoneType"
  | bool _ => "bool"
  | int _ => "int"
  | float _ => "float"
  | decimal _ => "Decimal"
  | text _ | broken _ => "str"
  | bytes _ => "bytes"
  | date _ => "date"
  | time _ => "time"
  | timestamp _ => "datetime"
  | uuid _ => "UUID"
  | list _ => "list"
  | tuple _ => "tuple"
  | set _ => "set"
  | map _ => "dict"
  | member v => kindName v
  | object kind _ => kind
  | zone _ => "timezone"
  | feature kind => kind

end Value

end Sieve
