import Sieve.Value.Order
/-!
# Attributes of values

Scalars and containers have named attributes as objects have: the parts of a day or of an
identifier, the greatest and the least value of a kind, and operations, of which only the existence
is known.

* `Value.attribute?` is an attribute of a value;
* `Value.step` follows one step of a path, a key of a map or the name of an attribute, and
  `Value.atPath` a whole path; where a path breaks off there is null.

Main statements: `atPath_cons`, `atPath_null`, `step_text`.
-/

namespace Sieve

/-! ### Parts of identifiers -/

namespace Uuid

/-- The bits of an identifier from a place on. -/
def bits (u : Uuid) (shift width : Nat) : Nat :=
  u.value / Power.two shift % Power.two width

/-- The lowest field of the time of an identifier. -/
def timeLow (u : Uuid) : Nat := u.bits 96 32

/-- The middle field of the time of an identifier. -/
def timeMid (u : Uuid) : Nat := u.bits 80 16

/-- The highest field of the time of an identifier, with its version. -/
def timeHighVersion (u : Uuid) : Nat := u.bits 64 16

/-- The high octet of the sequence number of an identifier, with its layout. -/
def sequenceHighVariant (u : Uuid) : Nat := u.bits 56 8

/-- The low octet of the sequence number of an identifier. -/
def sequenceLow (u : Uuid) : Nat := u.bits 48 8

/-- The node of an identifier. -/
def node (u : Uuid) : Nat := u.bits 0 48

/-- The time of an identifier. -/
def time (u : Uuid) : Nat :=
  (u.bits 64 12 * Power.two 16 + u.timeMid) * Power.two 32 + u.timeLow

/-- The sequence number of an identifier. -/
def sequence (u : Uuid) : Nat := u.bits 48 14

/-- The octets of an identifier, the highest first. -/
def octets (u : Uuid) : List UInt8 :=
  (List.range 16).map fun i => UInt8.ofNat (u.bits (8 * (15 - i)) 8)

/-- The octets of an identifier with those of its first three fields in reverse. -/
def octetsLittle (u : Uuid) : List UInt8 :=
  let os := u.octets
  (os.take 4).reverse ++ ((os.drop 4).take 2).reverse ++ ((os.drop 6).take 2).reverse ++ os.drop 8

/-- Whether an identifier has the standard layout. -/
def isStandard (u : Uuid) : Bool := u.bits 62 2 = 2

/-- The layout of an identifier, in words. -/
def variant (u : Uuid) : String :=
  if u.bits 63 1 = 0 then "reserved for NCS compatibility"
  else if u.bits 62 1 = 0 then "specified in RFC 4122"
  else if u.bits 61 1 = 0 then "reserved for Microsoft compatibility"
  else "reserved for future definition"

/-- The version of an identifier of the standard layout. -/
def version? (u : Uuid) : Option Nat :=
  if u.isStandard then some (u.bits 76 4) else none

end Uuid

/-! ### Extremes -/

/-- The last day. -/
def Date.greatest : Date where
  year := 9999
  month := 12
  day := 31

/-- The last microsecond of a day. -/
def Clock.greatest : Clock where
  hour := 23
  minute := 59
  second := 59
  microsecond := 999999

namespace Value

/-! ### Operations -/

/-- The kind of an operation. -/
def operationKind : String := "builtin_function_or_method"

/-- The names of the operations of integers and truth values. -/
def integerOperations : List String :=
  ["as_integer_ratio", "bit_count", "bit_length", "conjugate", "from_bytes", "to_bytes"]

/-- The names of the operations of doubles. -/
def doubleOperations : List String :=
  ["as_integer_ratio", "conjugate", "fromhex", "hex", "is_integer"]

/-- The names of the operations of decimals. -/
def decimalOperations : List String :=
  ["adjusted", "as_integer_ratio", "as_tuple", "canonical", "compare", "compare_signal",
    "compare_total", "compare_total_mag", "conjugate", "copy_abs", "copy_negate", "copy_sign",
    "exp", "fma", "from_float", "is_canonical", "is_finite", "is_infinite", "is_nan", "is_normal",
    "is_qnan", "is_signed", "is_snan", "is_subnormal", "is_zero", "ln", "log10", "logb",
    "logical_and", "logical_invert", "logical_or", "logical_xor", "max", "max_mag", "min",
    "min_mag", "next_minus", "next_plus", "next_toward", "normalize", "number_class", "quantize",
    "radix", "remainder_near", "rotate", "same_quantum", "scaleb", "shift", "sqrt",
    "to_eng_string", "to_integral", "to_integral_exact", "to_integral_value"]

/-- The names of the operations of texts. -/
def textOperations : List String :=
  ["capitalize", "casefold", "center", "count", "encode", "endswith", "expandtabs", "find",
    "format", "format_map", "index", "isalnum", "isalpha", "isascii", "isdecimal", "isdigit",
    "isidentifier", "islower", "isnumeric", "isprintable", "isspace", "istitle", "isupper",
    "join", "ljust", "lower", "lstrip", "maketrans", "partition", "removeprefix", "removesuffix",
    "replace", "rfind", "rindex", "rjust", "rpartition", "rsplit", "rstrip", "split",
    "splitlines", "startswith", "strip", "swapcase", "title", "translate", "upper", "zfill"]

/-- The names of the operations of octets. -/
def octetOperations : List String :=
  ["capitalize", "center", "count", "decode", "endswith", "expandtabs", "find", "fromhex", "hex",
    "index", "isalnum", "isalpha", "isascii", "isdigit", "islower", "isspace", "istitle",
    "isupper", "join", "ljust", "lower", "lstrip", "maketrans", "partition", "removeprefix",
    "removesuffix", "replace", "rfind", "rindex", "rjust", "rpartition", "rsplit", "rstrip",
    "split", "splitlines", "startswith", "strip", "swapcase", "title", "translate", "upper",
    "zfill"]

/-- The names of the operations of days. -/
def dateOperations : List String :=
  ["ctime", "fromisocalendar", "fromisoformat", "fromordinal", "fromtimestamp", "isocalendar",
    "isoformat", "isoweekday", "replace", "strftime", "timetuple", "today", "toordinal",
    "weekday"]

/-- The names of the operations of times of day. -/
def timeOperations : List String :=
  ["dst", "fromisoformat", "isoformat", "replace", "strftime", "tzname", "utcoffset"]

/-- The names of the operations of points in time. -/
def timestampOperations : List String :=
  ["astimezone", "combine", "ctime", "date", "dst", "fromisocalendar", "fromisoformat",
    "fromordinal", "fromtimestamp", "isocalendar", "isoformat", "isoweekday", "now", "replace",
    "strftime", "strptime", "time", "timestamp", "timetuple", "timetz", "today", "toordinal",
    "tzname", "utcfromtimestamp", "utcnow", "utcoffset", "utctimetuple", "weekday"]

/-- The names of the operations of lists. -/
def listOperations : List String :=
  ["append", "clear", "copy", "count", "extend", "index", "insert", "pop", "remove", "reverse",
    "sort"]

/-- The names of the operations of tuples. -/
def tupleOperations : List String :=
  ["count", "index"]

/-- The names of the operations of sets. -/
def setOperations : List String :=
  ["add", "clear", "copy", "difference", "difference_update", "discard", "intersection",
    "intersection_update", "isdisjoint", "issubset", "issuperset", "pop", "remove",
    "symmetric_difference", "symmetric_difference_update", "union", "update"]

/-- The names of the operations of distances from universal time. -/
def zoneOperations : List String :=
  ["dst", "fromutc", "tzname", "utcoffset"]

/-- The operation with a name, if it is among the given ones. -/
def operation? (names : List String) (name : String) : Option Value :=
  if names.contains name then some (feature operationKind) else none

/-! ### Attributes of scalars -/

/-- An attribute of an integer: a part of it as a complex number or as a quotient, or an
operation. -/
def ofInteger? (i : Int) : String → Option Value
  | "real" | "numerator" => some (int i)
  | "imag" => some (int 0)
  | "denominator" => some (int 1)
  | name => operation? integerOperations name

/-- A part of a day. -/
def partOfDate? (d : Date) : String → Option Value
  | "year" => some (int d.year)
  | "month" => some (int d.month)
  | "day" => some (int d.day)
  | _ => none

/-- An attribute of a day. -/
def ofDate? (d : Date) : String → Option Value
  | "min" => some (date .least)
  | "max" => some (date .greatest)
  | "resolution" => some (feature "timedelta")
  | name => (partOfDate? d name).or (operation? dateOperations name)

/-- A part of a reading of a clock with its offset. -/
def partOfClock? (c : Clock) (offset : Option Offset) : String → Option Value
  | "hour" => some (int c.hour)
  | "minute" => some (int c.minute)
  | "second" => some (int c.second)
  | "microsecond" => some (int c.microsecond)
  | "fold" => some (int 0)
  | "tzinfo" => some ((offset.map zone).getD null)
  | "resolution" => some (feature "timedelta")
  | _ => none

/-- An attribute of a time of day. -/
def ofTime? (t : TimeOfDay) : String → Option Value
  | "min" => some (time ⟨.midnight, none⟩)
  | "max" => some (time ⟨.greatest, none⟩)
  | name => (partOfClock? t.clock t.offset name).or (operation? timeOperations name)

/-- An attribute of a point in time. -/
def ofTimestamp? (t : Timestamp) : String → Option Value
  | "min" => some (timestamp ⟨.least, .midnight, none⟩)
  | "max" => some (timestamp ⟨.greatest, .greatest, none⟩)
  | name =>
    (partOfDate? t.date name).or ((partOfClock? t.clock t.offset name).or
      (operation? timestampOperations name))

/-- A natural number as a value. -/
def natural (n : Nat) : Value := int n

/-- An attribute of an identifier. -/
def ofUuid? (u : Uuid) : String → Option Value
  | "int" => some (natural u.value)
  | "hex" => some (text (String.ofList (Uuid.hexDigits 32 u.value)))
  | "urn" => some (text (String.ofList ("urn:uuid:".toList ++ u.text)))
  | "bytes" => some (bytes u.octets)
  | "bytes_le" => some (bytes u.octetsLittle)
  | "fields" => some (tuple ([u.timeLow, u.timeMid, u.timeHighVersion, u.sequenceHighVariant,
      u.sequenceLow, u.node].map natural))
  | "time_low" => some (natural u.timeLow)
  | "time_mid" => some (natural u.timeMid)
  | "time_hi_version" => some (natural u.timeHighVersion)
  | "clock_seq_hi_variant" => some (natural u.sequenceHighVariant)
  | "clock_seq_low" => some (natural u.sequenceLow)
  | "node" => some (natural u.node)
  | "time" => some (natural u.time)
  | "clock_seq" => some (natural u.sequence)
  | "variant" => some (text u.variant)
  | "version" => some ((u.version?.map natural).getD null)
  | "is_safe" => some (feature "SafeUUID")
  | _ => none

/-- An attribute of a value. -/
def attribute? (v : Value) (name : String) : Option Value :=
  match v with
  | bool b => ofInteger? (if b then 1 else 0) name
  | int i => ofInteger? i name
  | float x =>
    if name = "real" then some (float x)
    else if name = "imag" then some (float (.zero false))
    else operation? doubleOperations name
  | decimal d =>
    if name = "real" then some (decimal d)
    else if name = "imag" then some (decimal (.ofInt 0))
    else operation? decimalOperations name
  | text _ | broken _ => operation? textOperations name
  | bytes _ => operation? octetOperations name
  | date d => ofDate? d name
  | time t => ofTime? t name
  | timestamp t => ofTimestamp? t name
  | uuid u => ofUuid? u name
  | list _ => operation? listOperations name
  | tuple _ => operation? tupleOperations name
  | set _ => operation? setOperations name
  | member v =>
    if name = "value" then some v
    else if name = "name" then some (feature "str")
    else none
  | object _ as => as.lookup name
  | zone _ => operation? zoneOperations name
  | null | map _ | feature _ => none

/-! ### Paths -/

/-- The value of a text key of a map, or of an attribute of another value; null if there is none. -/
def named (v : Value) (name : String) : Value :=
  match v with
  | map es => (lookup? name es).getD null
  | v => (v.attribute? name).getD null

/-- The value of a key of a map, or of the attribute that a text names. Values that can change are
no keys, and other values than texts name no attributes; no attribute has surrogates in its name. -/
def step (v key : Value) : Except Error Value :=
  match v, key with
  | null, _ => .ok null
  | v, text name => .ok (v.named name)
  | map es, key =>
    if key.isKey then do
      return ((← es.findM? fun e => equal key e.1).map (·.2)).getD null
    else .error .mismatch
  | _, broken _ => .ok null
  | _, _ => .error .mismatch

/-- The value at the end of a path of keys and attributes; null if the path breaks off. -/
def atPath (v : Value) : List Value → Except Error Value
  | [] => .ok v
  | key :: path => do (← v.step key).atPath path

@[simp] theorem named_null (name : String) : null.named name = null := rfl

@[simp] theorem step_text (v : Value) (name : String) : v.step (text name) = .ok (v.named name) := by
  cases v <;> rfl

@[simp] theorem atPath_nil (v : Value) : v.atPath [] = .ok v := rfl

@[simp] theorem atPath_cons (v : Value) (name : String) (path : List Value) :
    v.atPath (text name :: path) = (v.named name).atPath path := by
  rw [atPath, step_text]
  rfl

@[simp] theorem atPath_null (path : List Value) : null.atPath path = .ok null := by
  induction path with
  | nil => rfl
  | cons key path ih => exact ih

end Value

end Sieve
