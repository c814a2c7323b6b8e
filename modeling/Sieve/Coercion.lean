import Sieve.Value.Items
import Sieve.Value.Text
/-!
# Coercion of values to storage types

Parameters arrive as texts or as values of other types. Before they are compared they are converted
to the storage type of their field. A value that has no text, because an integer in it is too long,
is converted to nothing that is read from texts.

* `StorageType.coerce` converts one value; null stays null;
* `Operator.coerce` converts the value of a filter in the shape that the operator takes.

Main statements: `typed_text`, `coerce_null` and `coerce_any`.
-/

namespace Sieve

/-- The text of a value without the blanks around it. -/
def Value.typed (v : Value) : Except Error String := do
  return Text.strip (← v.written)

@[simp] theorem Value.typed_text (s : String) : (Value.text s).typed = .ok (Text.strip s) := by
  simp [Value.typed, bind, Except.bind, pure, Except.pure]

/-- The outcome of reading a text as a number. -/
def readNumber (v : Value) (read : String → Option Value) : Except Error Value := do
  let s ← v.typed
  if s.isEmpty then .error .emptyNumber
  else
    match read s with
    | some n => .ok n
    | none => .error (.notANumber v)

/-- The integer of a value. -/
def coerceInteger (v : Value) : Except Error Value :=
  match v with
  | .bool _ => .error (.notANumber v)
  | .int _ => .ok v
  | .float x =>
    match x.toInt? with
    | some i => .ok (.int i)
    | none => .error (.notAnInteger v)
  | _ => readNumber v fun s => (Numeral.integer? s).map .int

/-- The double of a value. -/
def coerceFloat (v : Value) : Except Error Value :=
  match v with
  | .bool _ => .error (.notANumber v)
  | .float _ => .ok v
  | .int i =>
    match Binary64.ofInt? i with
    | some x => .ok (.float x)
    | none => .error .overflow
  | _ => readNumber v fun s => (Binary64.read? s).map .float

/-- The decimal of a value. -/
def coerceDecimal (v : Value) : Except Error Value :=
  match v with
  | .bool _ => .error (.notANumber v)
  | .decimal _ => .ok v
  | _ => readNumber v fun s => (Decimal.read? s).map .decimal

/-- The words for true. -/
def trueWords : List String := ["1", "true", "yes", "y", "on"]

/-- The words for false. -/
def falseWords : List String := ["0", "false", "no", "n", "off"]

/-- The truth value of a value. -/
def coerceBoolean (v : Value) : Except Error Value :=
  match v with
  | .bool _ => .ok v
  | _ => do
    let word := String.ofList ((← v.typed).toList.map Char.toLower)
    if trueWords.contains word then .ok (.bool true)
    else if falseWords.contains word then .ok (.bool false)
    else .error (.notABoolean v)

/-- The text with the mark of universal time written as an offset. -/
def spellUtc (s : String) : String :=
  String.ofList (s.toList.flatMap fun c => if c = 'Z' then "+00:00".toList else [c])

/-- The text with surrogates without the blanks around it, and with the mark of universal time
written as an offset. -/
def BrokenText.spelled (t : BrokenText) : RawText :=
  let isBlank (p : CodePoint) : Bool := p.char?.any Text.isBlank
  let ps := ((t.points.dropWhile isBlank).reverse.dropWhile isBlank).reverse
  .ofPoints (ps.flatMap fun p => if p = .char 'Z' then "+00:00".toList.map .char else [p])

/-- The value that a text was read as; a text that cannot be read is malformed. -/
def orMalformed (r : Option Value) : Except Error Value :=
  match r with
  | some v => .ok v
  | none => .error .malformed

/-- The day of a value: that of a point in time, or the one a text writes, alone or with a time. -/
def coerceDate (v : Value) : Except Error Value :=
  match v with
  | .timestamp t => .ok (.date t.date)
  | .date _ => .ok v
  | .broken t =>
    if t.spelled.points.any fun p => p.char?.any fun c => c == 'T' || c == ' ' then
      orMalformed ((Iso.readRawTimestamp? t.spelled).map fun t => .date t.date)
    else .error .malformed
  | _ => do
    let s ← v.typed
    if s.toList.any fun c => c == 'T' || c == ' ' then
      orMalformed ((Iso.readTimestamp? (spellUtc s)).map fun t => .date t.date)
    else orMalformed ((Iso.readDate? s).map .date)

/-- The point in time of a value; a day is taken at midnight. -/
def coerceTimestamp (v : Value) : Except Error Value :=
  match v with
  | .timestamp _ => .ok v
  | .date d => .ok (.timestamp (.ofDate d))
  | .broken t => orMalformed ((Iso.readRawTimestamp? t.spelled).map .timestamp)
  | _ => do orMalformed ((Iso.readTimestamp? (spellUtc (← v.typed))).map .timestamp)

/-- The identifier of a value. -/
def coerceUuid (v : Value) : Except Error Value :=
  match v with
  | .uuid _ => .ok v
  | _ => do orMalformed ((Uuid.read? (← v.typed)).map .uuid)

/-- The text of a value that is no collection. -/
def coerceText (v : Value) : Except Error Value :=
  match v with
  | .list _ | .tuple _ | .map _ => .error (.notAText v)
  | _ => v.asText

namespace StorageType

/-- Converts a value to a storage type. -/
def coerce (t : StorageType) (v : Value) : Except Error Value :=
  if v.isNull then .ok .null
  else
    match t with
    | integer => coerceInteger v
    | float => coerceFloat v
    | decimal => coerceDecimal v
    | boolean => coerceBoolean v
    | date => coerceDate v
    | datetime => coerceTimestamp v
    | uuid => coerceUuid v
    | string => coerceText v
    | any | enum | array | map => .ok v

@[simp] theorem coerce_null (t : StorageType) : t.coerce .null = .ok .null := rfl

/-- Fields of any type take values as they are. -/
@[simp] theorem coerce_any (v : Value) : any.coerce v = .ok v := by
  cases v <;> rfl

end StorageType

namespace Operator

/-- Whether the value is a list or a map. -/
def isCollection : Value → Bool
  | .list _ | .map _ => true
  | _ => false

/-- Converts the terms of a search to texts. -/
def coerceTerms : Value → Except Error Value
  | .list xs | .tuple xs => do return .list (← xs.mapM Value.asText)
  | .map _ => .error .notATerm
  | v => v.asText

/-- Converts the value of a filter to the storage type of its field, in the shape that the operator
takes: a list of alternatives, terms, a single item, or a single value. -/
def coerce (op : Operator) (t : StorageType) (v : Value) : Except Error Value :=
  if v.isNull || op.isEmptiness then .ok v
  else if op.takesList then
    match v.sequence? with
    | some xs => do .ok (.list (← xs.mapM t.coerce))
    | none => .error .notAList
  else if op.isSubstring || op.isMultiTerm then coerceTerms v
  else if op.isMembership then
    if isCollection v then .error .notSingle else .ok v
  else if t = .array ∨ t = .map then .ok v
  else if isCollection v then .error .notSingle
  else t.coerce v

end Operator

end Sieve
