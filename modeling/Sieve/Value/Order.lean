import Sieve.Error
/-!
# Equality and order of values

Values are equal across kinds where they mean the same: numbers and truth values compare by value.
A list never equals a tuple, a day never equals a point in time, and a point in time with an offset
never equals one without. What is not a number equals nothing, nor does a member of an enumeration:
every member that is given is one of an enumeration of its own.

Order exists among numbers, among texts, and so on within one kind; asking for it across kinds is an
error, and so is asking for the order of a decimal that is not a number. Texts are in the order of
their code points, surrogates included.

* `Value.equal` and `Value.precedes` compare; `Value.member?` looks a value up in a list;
* `Value.contains` looks a value up in a container.

Main statements: `equal_null`, `equal_int`, `equal_text`, `equal_member`, `precedes_int`,
`precedes_text`.
-/

namespace Sieve

namespace Value

/-- The number that a truth value or a number is. -/
def number? : Value → Option Decimal
  | bool b => some (.ofInt (if b then 1 else 0))
  | int i => some (.ofInt i)
  | float x => some (.ofBinary64 x)
  | decimal d => some d
  | _ => none

/-- Whether two numbers are equal. Signalling decimals refuse the question. -/
def numbersEqual (a b : Decimal) : Except Error Bool :=
  if a.isNan || b.isNan then
    if a.isSignaling || b.isSignaling then .error .invalidOperation else .ok false
  else .ok (Decimal.compare a b == .eq)

/-- Whether a number stands in front of another. Decimals refuse the question for what is not a
number, doubles answer no. -/
def numbersOrdered (orEqual exact : Bool) (a b : Decimal) : Except Error Bool :=
  if a.isNan || b.isNan then
    if exact then .error .invalidOperation else .ok false
  else
    match Decimal.compare a b with
    | .lt => .ok true
    | .eq => .ok orEqual
    | .gt => .ok false

/-- Whether the value is a decimal. -/
def isDecimal : Value → Bool
  | decimal _ => true
  | _ => false

mutual

/-- Whether two values are equal. -/
def equal : Value → Value → Except Error Bool
  | null, null => .ok true
  | bool a, bool b => .ok (a == b)
  | int a, int b => .ok (a == b)
  | text a, text b => .ok (a == b)
  | broken a, broken b => .ok (a == b)
  | bytes a, bytes b => .ok (a == b)
  | date a, date b => .ok (a == b)
  | time a, time b => .ok (a.compare? b == some .eq)
  | timestamp a, timestamp b => .ok (a.compare? b == some .eq)
  | uuid a, uuid b => .ok (a == b)
  | list xs, list ys => if xs.length = ys.length then equalItems xs ys else .ok false
  | tuple xs, tuple ys => equalItems xs ys
  | set xs, set ys => if xs.length = ys.length then equalSets xs ys else .ok false
  | map es, map fs => if es.length = fs.length then equalEntries es fs else .ok false
  | zone a, zone b => .ok (a == b)
  | a, b =>
    match a.number?, b.number? with
    | some x, some y => numbersEqual x y
    | _, _ => .ok false

/-- Whether two lists of values are equal item by item. -/
def equalItems : List Value → List Value → Except Error Bool
  | [], ys => .ok ys.isEmpty
  | _ :: _, [] => .ok false
  | x :: xs, y :: ys => do if ← equal x y then equalItems xs ys else .ok false

/-- Whether each value of the first list equals one of the second. -/
def equalSets : List Value → List Value → Except Error Bool
  | [], _ => .ok true
  | x :: xs, ys => do if ← ys.anyM (equal x) then equalSets xs ys else .ok false

/-- Whether each key of the first map is a key of the second one, with an equal value. -/
def equalEntries : List (Value × Value) → List (Value × Value) → Except Error Bool
  | [], _ => .ok true
  | (k, v) :: es, fs => do
    match ← fs.findM? fun f => equal k f.1 with
    | some f => if ← equal v f.2 then equalEntries es fs else .ok false
    | none => .ok false

end

/-- Whether a list holds a value equal to the given one, looked for from the front. -/
def member? (v : Value) : List Value → Except Error Bool
  | [] => .ok false
  | x :: r => do if ← equal v x then .ok true else member? v r

/-- Whether an order of comparable items exists and puts the first in front of the second. -/
def ordered (orEqual : Bool) : Ordering → Bool
  | .lt => true
  | .eq => orEqual
  | .gt => false

/-- The order of two lists of octets. -/
def compareOctets : List UInt8 → List UInt8 → Ordering
  | [], [] => .eq
  | [], _ :: _ => .lt
  | _ :: _, [] => .gt
  | a :: r, b :: s => (Ord.compare a.toNat b.toNat).then (compareOctets r s)

/-- The order of two texts by code points. -/
def compareTexts : List Char → List Char → Ordering
  | [], [] => .eq
  | [], _ :: _ => .lt
  | _ :: _, [] => .gt
  | a :: r, b :: s => (Ord.compare a.toNat b.toNat).then (compareTexts r s)

/-- The order of two texts by the numbers of their code points. -/
def comparePoints : List CodePoint → List CodePoint → Ordering
  | [], [] => .eq
  | [], _ :: _ => .lt
  | _ :: _, [] => .gt
  | a :: r, b :: s => (Ord.compare a.code b.code).then (comparePoints r s)

/-- The answer of a partial order; no order is an error. -/
def orMismatch (orEqual : Bool) : Option Ordering → Except Error Bool
  | some o => .ok (ordered orEqual o)
  | none => .error .mismatch

mutual

/-- Whether a value stands in front of another, or also equals it. -/
def precedes (orEqual : Bool) : Value → Value → Except Error Bool
  | int a, int b => .ok (ordered orEqual (Ord.compare a b))
  | text a, text b => .ok (ordered orEqual (compareTexts a.toList b.toList))
  | text a, broken b => .ok (ordered orEqual (comparePoints (a.toList.map .char) b.points))
  | broken a, text b => .ok (ordered orEqual (comparePoints a.points (b.toList.map .char)))
  | broken a, broken b => .ok (ordered orEqual (comparePoints a.points b.points))
  | bytes a, bytes b => .ok (ordered orEqual (compareOctets a b))
  | date a, date b => .ok (ordered orEqual (a.compare b))
  | time a, time b => orMismatch orEqual (a.compare? b)
  | timestamp a, timestamp b => orMismatch orEqual (a.compare? b)
  | uuid a, uuid b => .ok (ordered orEqual (Ord.compare a.value b.value))
  | list xs, list ys => precedesItems orEqual xs ys
  | tuple xs, tuple ys => precedesItems orEqual xs ys
  | set xs, set ys => do
    let sub ← equalSets xs ys
    .ok (sub && (orEqual || xs.length < ys.length))
  | a, b =>
    match a.number?, b.number? with
    | some x, some y => numbersOrdered orEqual (a.isDecimal || b.isDecimal) x y
    | _, _ => .error .mismatch

/-- The order of two lists: that of the first items that differ, else the shorter one first. -/
def precedesItems (orEqual : Bool) : List Value → List Value → Except Error Bool
  | [], ys => .ok (orEqual || !ys.isEmpty)
  | _ :: _, [] => .ok false
  | x :: xs, y :: ys => do
    if ← equal x y then precedesItems orEqual xs ys else precedes orEqual x y

end

@[simp] theorem equal_text (a b : String) : equal (text a) (text b) = .ok (a == b) := by
  simp [equal]

@[simp] theorem equal_int (a b : Int) : equal (int a) (int b) = .ok (a == b) := by
  simp [equal]

@[simp] theorem equal_null : equal null null = .ok true := by
  simp [equal]

/-- A member of an enumeration equals nothing. -/
@[simp] theorem equal_member (a b : Value) : equal (member a) b = .ok false := by
  cases b <;> simp [equal, number?]

@[simp] theorem precedes_text (orEqual : Bool) (a b : String) :
    precedes orEqual (text a) (text b) =
      .ok (ordered orEqual (compareTexts a.toList b.toList)) := by
  simp [precedes]

@[simp] theorem precedes_int (orEqual : Bool) (a b : Int) :
    precedes orEqual (int a) (int b) = .ok (ordered orEqual (Ord.compare a b)) := by
  simp [precedes]

/-- Whether a value can be looked up in a set or among the keys of a map: containers that can
change cannot, nor can signalling decimals. -/
def isKey : Value → Bool
  | list _ | set _ | map _ => false
  | decimal d => !d.isSignaling
  | tuple xs => keys xs
  | _ => true
where
  /-- Whether all values can be looked up. -/
  keys : List Value → Bool
    | [] => true
    | x :: r => isKey x && keys r

/-- Whether items occur in a row in others. -/
def isInfix {α : Type} [BEq α] (needle : List α) : List α → Bool
  | [] => needle.isEmpty
  | c :: r => needle.isPrefixOf (c :: r) || isInfix needle r

/-- Whether a container holds a value: a text its substrings, a list or a tuple its items, a map its
keys. No set holds a set. -/
def contains (container needle : Value) : Except Error Bool :=
  match container, needle with
  | text t, text n => .ok (isInfix n.toList t.toList)
  | text _, broken _ => .ok false
  | broken t, text n => .ok (isInfix (n.toList.map .char) t.points)
  | broken t, broken n => .ok (isInfix n.points t.points)
  | list xs, n => member? n xs
  | tuple xs, n => member? n xs
  | set _, set _ => .ok false
  | set xs, n => if n.isKey then member? n xs else .error .mismatch
  | map es, n => if n.isKey then member? n (es.map (·.1)) else .error .mismatch
  | bytes b, bytes n => .ok (isInfix n b)
  | bytes b, bool n => .ok (b.any fun o => o.toNat = n.toNat)
  | bytes b, int i =>
    if 0 ≤ i ∧ i < 256 then .ok (b.any fun o => (o.toNat : Int) = i) else .error .malformed
  | _, _ => .error .mismatch

end Value

end Sieve
