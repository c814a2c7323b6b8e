import Sieve.Json.Access
import Sieve.Json.Ascii
import Sieve.Value.Items
import Sieve.Calendar.Iso
import Sieve.Filter
/-!
# Values as JSON documents

Values that JSON does not know are objects with a single field that is named for their type. Maps
whose keys are not all texts, and maps that look like such an object, are lists of pairs. A filter is
an object with the list of its parts.

* `Json.decode` reads a document and refuses data that does not fit its tag, `Json.toValue` reads a
  document that is known to be in order; `Value.toJson` writes one.

Main statements: `toValue_text`, `toJson_list`.
-/

namespace Sieve

namespace Json

/-! ### Reading -/

/-- The octets that pairs of hexadecimal digits write, with blanks between pairs. -/
def octets? : List Char → Option (List UInt8)
  | [] => some []
  | a :: r =>
    if a.isWhitespace then octets? r
    else
      match r with
      | [] => none
      | b :: r => do
        let high ← hexDigit? a
        let low ← hexDigit? b
        return UInt8.ofNat (high * 16 + low) :: (← octets? r)

/-- The value that a text was read as; a text that cannot be read is an error. -/
def orFault (fault : Error) (v : Option Value) : Except Error Value :=
  match v with
  | some v => .ok v
  | none => .error fault

/-- The double that a value under a tag writes. -/
def taggedFloat : Value → Except Error Value
  | .text s => orFault .malformed ((Binary64.read? s).map .float)
  | v => .float <$> v.double

/-- The decimal that a value under a tag writes. -/
def taggedDecimal : Value → Except Error Value
  | .text s => orFault .invalidOperation ((Decimal.read? s).map .decimal)
  | .float x => .ok (.decimal (.ofBinary64 x))
  | v =>
    match v.count? with
    | some i => .ok (.decimal (.ofInt i))
    | none => .error .mismatch

/-- The value that a text under a tag writes, if the tag is one of texts. -/
def taggedText? (tag s : String) : Option (Except Error Value) :=
  match tag with
  | "$date" => some (orFault .malformed ((Iso.readDate? s).map .date))
  | "$datetime" => some (orFault .malformed ((Iso.readTimestamp? s).map .timestamp))
  | "$time" => some (orFault .malformed ((Iso.readTime? s).map .time))
  | "$uuid" => some (orFault .malformed ((Uuid.read? s).map .uuid))
  | "$bytes" => some (orFault .malformed ((octets? s.toList).map .bytes))
  | _ => none

/-- The attribute that an entry with a text key is. -/
def attribute? (e : Value × Value) : Option (String × Value) :=
  match e.1 with
  | .text s => some (s, e.2)
  | _ => none

/-- The object of a kind that a map gives the attributes of. -/
def objectOf (kind : String) : Value → Except Error Value
  | .map es => .ok (.object kind (es.filterMap attribute?))
  | _ => .error .mismatch

/-- The group of a label and filters, which may be missing. -/
def groupOf : List Value → Except Error Value
  | [] => .ok (Filter.groupValue (.text "and") [])
  | [label] => .ok (Filter.groupValue label [])
  | [label, children] => do return Filter.groupValue label (← children.items)
  | _ => .error .mismatch

/-- The set of some items, none of which can change. -/
def setOf (xs : List Value) : Except Error Value :=
  if xs.all Value.isKey then .ok (Value.setOf xs) else .error .mismatch

/-- The kind of the objects of an input that are given by their attributes. -/
def plainKind : String := "object"

/-- The kind of the objects that requests are. -/
def requestKind : String := "Request"

/-- The kind of the objects that checked parameters are. -/
def paramsKind : String := "QueryParams"

/-- The value of a field that is named for a type; other fields are none. -/
def special? (tag : String) (v : Value) : Except Error (Option Value) :=
  match tag with
  | "$enum" => .ok (some (.member v))
  | "$tuple" => do return some (.tuple (← v.items))
  | "$set" => do return some (← setOf (← v.items))
  | "$map" => do return some (.map (← Value.entriesOfPairs (← (← v.items).mapM Value.pairOf)))
  | "$obj" => some <$> objectOf plainKind v
  | "$filter" => do return some (Filter.conditionValue (← Condition.ofParts (← v.items)))
  | "$comb" => do return some (← groupOf (← v.items))
  | "$request" => some <$> objectOf requestKind v
  | "$params" => some <$> objectOf paramsKind v
  | "$int" => do return some (.int (← v.wholePart))
  | "$float" => some <$> taggedFloat v
  | "$decimal" => some <$> taggedDecimal v
  | tag =>
    match v with
    | .text s => (taggedText? tag s).mapM id
    | _ => if (taggedText? tag "").isSome then .error .mismatch else .ok none

/-- The value of an object with the given fields. -/
def objectValue : List (String × Value) → Except Error Value
  | [(k, v)] => do return (← special? k v).getD (.map [(.text k, v)])
  | es => .ok (.map (es.map fun e => (.text e.1, e.2)))

mutual

/-- The value of a document. -/
def decode : Json → Except Error Value
  | null => .ok .null
  | bool b => .ok (.bool b)
  | int i => .ok (.int i)
  | float x => .ok (.float x)
  | text s => .ok (.text s)
  | broken t => .ok (.broken t)
  | array xs => do return .list (← decodeItems xs)
  | object es => do objectValue (← decodeFields es)
  | brokenObject es => do return .map (← decodeRawFields es)

/-- The values of documents, in order. -/
def decodeItems : List Json → Except Error (List Value)
  | [] => .ok []
  | j :: r => do
    let v ← decode j
    let vs ← decodeItems r
    return v :: vs

/-- The values of fields, in order. -/
def decodeFields : List (String × Json) → Except Error (List (String × Value))
  | [] => .ok []
  | (k, j) :: r => do
    let v ← decode j
    let vs ← decodeFields r
    return (k, v) :: vs

/-- The values of fields some of whose names have surrogates, in order. -/
def decodeRawFields : List (RawText × Json) → Except Error (List (Value × Value))
  | [] => .ok []
  | (k, j) :: r => do
    let v ← decode j
    let vs ← decodeRawFields r
    return (.ofRaw k, v) :: vs

end

/-- The value of a document that is in order; another one counts as null. -/
def toValue (j : Json) : Value :=
  match decode j with
  | .ok v => v
  | .error _ => .null

@[simp] theorem toValue_text (s : String) : toValue (text s) = .text s := by
  simp [toValue, decode]

/-- The value of a field; a missing field is null. -/
def valueAt (j : Json) (name : String) : Value := (j.part name).toValue

/-- The values of a list. -/
def values (j : Json) : List Value := j.items.map toValue

/-- The entries of a map. -/
def mapEntries? (j : Json) : Option (List (Value × Value)) :=
  match j.toValue with
  | .map es => some es
  | _ => none

/-- Whether a field is there and counts as true. -/
def truthyAt (j : Json) (name : String) : Bool := (j.valueAt name).truthy

/-! ### Writing -/

/-- The greatest size of an integer that is written without a tag. -/
def plainSize : Nat := 9007199254740992

/-- The document of an integer. -/
def ofInt (i : Int) : Json :=
  if i.natAbs < plainSize then int i
  else object [("$int", text (String.ofList (Numeral.integerText i)))]

/-- The document of an optional integer. -/
def ofInt? (i : Option Int) : Json := (i.map ofInt).getD null

/-- A text under a tag. -/
def tagText (tag : String) (s : List Char) : Json := object [(tag, text (String.ofList s))]

/-- The text that a value is. -/
def raw? : Value → Option RawText
  | .text s => some (.whole s)
  | .broken t => some (.broken t)
  | _ => none

/-- The fields that entries with text keys are. -/
def plainFields? : List (Value × Json) → Option (List (RawText × Json))
  | [] => some []
  | (k, j) :: r => do
    let k ← raw? k
    let fields ← plainFields? r
    return (k, j) :: fields

/-- Whether fields look like a value under a tag. -/
def looksTagged : List (RawText × Json) → Bool
  | [(k, _)] => k.points.head? == some (.char '$')
  | _ => false

/-- Documents in the order of their texts. -/
def sorted (js : List Json) : List Json :=
  let texts := js.map fun j => (j.ascii.toList, j)
  (texts.mergeSort fun a b => Value.compareTexts a.1 b.1 != .gt).map (·.2)

/-- The document of an object of a kind. -/
def ofObject (kind : String) (attributes : List (String × Json)) : Json :=
  if kind = Filter.conditionKind then object [("$filter", array (attributes.map (·.2)))]
  else if kind = Filter.groupKind then
    match attributes with
    | [(_, label), (_, object [(_, children)])] => object [("$comb", array [label, children])]
    | as => object [("$comb", array (as.map (·.2)))]
  else if kind = plainKind then object [("$obj", object attributes)]
  else object attributes

end Json

namespace Value

mutual

/-- The document of a value. -/
def toJson : Value → Json
  | .null => .null
  | .bool b => .bool b
  | .int i => .ofInt i
  | .float x => .tagText "$float" x.text
  | .decimal d => .tagText "$decimal" d.text
  | .text s => .text s
  | .broken t => .broken t
  | .bytes b => .tagText "$bytes" (b.flatMap fun o => Uuid.hexDigits 2 o.toNat)
  | .date d => .tagText "$date" (Iso.dateText d)
  | .time t => .tagText "$time" (Iso.timeText t)
  | .timestamp t => .tagText "$datetime" (Iso.timestampText 'T' t)
  | .uuid u => .tagText "$uuid" u.text
  | .list xs => .array (toJsonItems xs)
  | .tuple xs => .object [("$tuple", .array (toJsonItems xs))]
  | .set xs => .object [("$set", .array (Json.sorted (toJsonItems xs)))]
  | .map es =>
    match Json.plainFields? (toJsonEntries es) with
    | some fields =>
      if Json.looksTagged fields then
        .object [("$map", .array (fields.map fun f => .array [.ofRaw f.1, f.2]))]
      else .ofEntries fields
    | none =>
      .object [("$map", .array (toJsonPairs es))]
  | .member v => .object [("$enum", toJson v)]
  | .object kind as => Json.ofObject kind (toJsonFields as)
  | .zone o => .tagText "$zone" (Value.zone o).toText
  | .feature kind => .tagText "$feature" kind.toList

/-- The documents of values, in order. -/
def toJsonItems : List Value → List Json
  | [] => []
  | x :: r => toJson x :: toJsonItems r

/-- The keys and the documents of the values of entries. -/
def toJsonEntries : List (Value × Value) → List (Value × Json)
  | [] => []
  | (k, v) :: r => (k, toJson v) :: toJsonEntries r

/-- The documents of entries as pairs. -/
def toJsonPairs : List (Value × Value) → List Json
  | [] => []
  | (k, v) :: r => .array [toJson k, toJson v] :: toJsonPairs r

/-- The documents of attributes. -/
def toJsonFields : List (String × Value) → List (String × Json)
  | [] => []
  | (k, v) :: r => (k, toJson v) :: toJsonFields r

end

@[simp] theorem toJson_list (xs : List Value) : toJson (.list xs) = .array (xs.map toJson) := by
  have : ∀ ys : List Value, toJsonItems ys = ys.map toJson := fun ys => by
    induction ys with
    | nil => rfl
    | cons y r ih => simp [toJsonItems, ih]
  simp [toJson, this]

end Value

end Sieve
