/-!
# Storage types

The comparable type of the values behind a field.

Main statement: `StorageType.ofName?_name` (names tell the types apart).
-/

namespace Sieve

/-- The type of the values behind a field. -/
inductive StorageType
  /-- Values of any type. -/
  | any
  /-- Integers. -/
  | integer
  /-- Doubles. -/
  | float
  /-- Decimal numbers. -/
  | decimal
  /-- Texts. -/
  | string
  /-- Truth values. -/
  | boolean
  /-- Days. -/
  | date
  /-- Points in time. -/
  | datetime
  /-- Identifiers. -/
  | uuid
  /-- Members of an enumeration. -/
  | enum
  /-- Collections. -/
  | array
  /-- Maps. -/
  | map
  deriving DecidableEq, Repr, Inhabited

namespace StorageType

/-- All storage types. -/
def all : List StorageType :=
  [any, integer, float, decimal, string, boolean, date, datetime, uuid, enum, array, map]

/-- The name of a storage type in declarations. -/
def name : StorageType → String
  | any => "any"
  | integer => "integer"
  | float => "float"
  | decimal => "decimal"
  | string => "string"
  | boolean => "boolean"
  | date => "date"
  | datetime => "datetime"
  | uuid => "uuid"
  | enum => "enum"
  | array => "array"
  | map => "map"

/-- The storage type with a name. -/
def ofName? (s : String) : Option StorageType :=
  all.find? (·.name == s)

@[simp] theorem ofName?_name (t : StorageType) : ofName? t.name = some t := by
  cases t <;> decide

end StorageType

end Sieve
