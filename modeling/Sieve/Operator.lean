import Sieve.StorageType
/-!
# Filter operators

The operators of filter conditions, the groups they fall into, and the operators that make sense
for a storage type.

Main statements: `Operator.ofName?_name` and `Operator.mem_all`.
-/

namespace Sieve

/-- An operator of a filter condition. -/
inductive Operator
  /-- Equal. -/
  | eq
  /-- Not equal. -/
  | ne
  /-- Less. -/
  | lt
  /-- Less or equal. -/
  | le
  /-- Greater. -/
  | gt
  /-- Greater or equal. -/
  | ge
  /-- Equal to one of a list. -/
  | isIn
  /-- Equal to none of a list. -/
  | notIn
  /-- The collection holds the value. -/
  | contains
  /-- The collection does not hold the value. -/
  | notContains
  /-- Holds one of the terms. -/
  | like
  /-- Holds none of the terms. -/
  | notLike
  /-- Holds one of the terms in any case. -/
  | ilike
  /-- Holds none of the terms in any case. -/
  | notIlike
  /-- Holds one of the terms in any case; another name of `ilike`. -/
  | search
  /-- Holds every word. -/
  | likeAnd
  /-- Holds some word. -/
  | likeOr
  /-- Holds every word in any case. -/
  | ilikeAnd
  /-- Holds some word in any case. -/
  | ilikeOr
  /-- Empty or not, as the value says. -/
  | empty
  /-- Not empty or empty, as the value says. -/
  | notEmpty
  deriving DecidableEq, Repr, Inhabited

namespace Operator

/-- All operators. -/
def all : List Operator :=
  [eq, ne, lt, le, gt, ge, isIn, notIn, contains, notContains, like, notLike, ilike, notIlike,
    search, likeAnd, likeOr, ilikeAnd, ilikeOr, empty, notEmpty]

theorem mem_all (op : Operator) : op ∈ all := by
  cases op <;> decide

/-- The name of an operator in parameters. -/
def name : Operator → String
  | eq => "=="
  | ne => "!="
  | lt => "<"
  | le => "<="
  | gt => ">"
  | ge => ">="
  | isIn => "in"
  | notIn => "not_in"
  | contains => "contains"
  | notContains => "not_contains"
  | like => "like"
  | notLike => "not_like"
  | ilike => "ilike"
  | notIlike => "not_ilike"
  | search => "=~"
  | likeAnd => "like_and"
  | likeOr => "like_or"
  | ilikeAnd => "ilike_and"
  | ilikeOr => "ilike_or"
  | empty => "empty"
  | notEmpty => "not_empty"

/-- The operator with a name. -/
def ofName? (s : String) : Option Operator :=
  all.find? (·.name == s)

@[simp] theorem ofName?_name (op : Operator) : ofName? op.name = some op := by
  cases op <;> decide

/-- The operators that order values. -/
def isComparison : Operator → Bool
  | lt | le | gt | ge => true
  | _ => false

/-- The operators that need equality of values only. -/
def isEquality : Operator → Bool
  | eq | ne | isIn | notIn => true
  | _ => false

/-- The operators that look a value up in a collection. -/
def isMembership : Operator → Bool
  | contains | notContains => true
  | _ => false

/-- The operators that search for terms as given. -/
def isSubstring : Operator → Bool
  | like | notLike | ilike | notIlike | search => true
  | _ => false

/-- The operators that search for the words of a text. -/
def isMultiTerm : Operator → Bool
  | likeAnd | likeOr | ilikeAnd | ilikeOr => true
  | _ => false

/-- The operators that ask for emptiness. -/
def isEmptiness : Operator → Bool
  | empty | notEmpty => true
  | _ => false

/-- The operators whose value is a list of alternatives. -/
def takesList : Operator → Bool
  | isIn | notIn => true
  | _ => false

/-- Whether the operator makes sense for values of a storage type: equality and emptiness always,
order unless the values are collections, search for texts, membership for collections. -/
def suits (t : StorageType) (op : Operator) : Bool :=
  op.isEquality || op.isEmptiness ||
    (op.isComparison && t != .array && t != .map) ||
    ((op.isSubstring || op.isMultiTerm) && (t == .any || t == .string)) ||
    (op.isMembership && (t == .any || t == .array))

/-- The operators that make sense for a storage type. -/
def forType (t : StorageType) : List Operator :=
  all.filter (suits t)

@[simp] theorem mem_forType {t : StorageType} {op : Operator} :
    op ∈ forType t ↔ suits t op = true := by
  simp [forType, mem_all]

end Operator

end Sieve
