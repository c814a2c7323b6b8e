import Sieve.Predicate
import Sieve.Filter
/-!
# Fields

What a schema knows about a field: where its values come from, their storage type, and the operators
that filters on it may use.

* `Field` lists the kinds of fields: columns of the entity, aliases selected by the query, columns
  of joined entities, composites of other fields, and fields with a filter function of their own;
* `Field.ref?` is where a field is found; composites and custom fields are nowhere.

Main statements: `ref?_isSome_iff` and `ref?_isAlias`.
-/

namespace Sieve

/-- Options of a custom field, as data. -/
abbrev FilterOptions := List (Value × Value)

/-- The filter function of a custom field. -/
abbrev FilterFunction := Condition → FilterOptions → Except Error Predicate

/-- The kinds of fields. -/
inductive FieldKind
  /-- A column of the entity. -/
  | plain
  /-- An alias selected by the query. -/
  | isAlias
  /-- A column of a joined entity. -/
  | join
  /-- A stand-in for several fields. -/
  | composite
  /-- A field with a filter function. -/
  | custom
  deriving DecidableEq, Repr, Inhabited

/-- The name of a kind of fields. -/
def FieldKind.name : FieldKind → String
  | plain => "plain"
  | isAlias => "alias"
  | join => "join"
  | composite => "composite"
  | custom => "custom"

/-- A declared field. -/
inductive Field
  /-- A column of the entity. -/
  | plain (name : String) (type : StorageType)
  /-- An alias selected by the query. -/
  | isAlias (name : String)
  /-- A column of a joined entity, with the steps to it from the root row. Without a binding it is
  found on the entity itself, without a column under its own name. -/
  | join (name : String) (binding column : Option String) (path : List Value)
    (type : StorageType) (operators : List Operator)
  /-- A stand-in for several fields. -/
  | composite (name : String) (members : List String)
  /-- A field with a filter function. -/
  | custom (name : String) (filter : FilterFunction) (options : FilterOptions) (type : StorageType)
    (operators : List Operator)

namespace Field

/-- The name of a field. -/
def name : Field → String
  | plain n _ | isAlias n | join n .. | composite n _ | custom n .. => n

/-- The kind of a field. -/
def kind : Field → FieldKind
  | plain .. => .plain
  | isAlias .. => .isAlias
  | join .. => .join
  | composite .. => .composite
  | custom .. => .custom

/-- The storage type of a field; composites are searched as texts. -/
def type : Field → StorageType
  | plain _ t => t
  | isAlias _ => .any
  | join _ _ _ _ t _ => t
  | composite .. => .string
  | custom _ _ _ t _ => t

/-- The operators that filters on a field may use. -/
def operators : Field → List Operator
  | plain _ t => Operator.forType t
  | isAlias _ => []
  | join _ _ _ _ _ ops => ops
  | composite .. => Operator.all
  | custom _ _ _ _ ops => ops

/-- Where a field is found. -/
def ref? : Field → Option FieldRef
  | plain n _ => some (.of n none none [] false)
  | isAlias n => some (.of n none none [] true)
  | join n b c p _ _ => some (.of n c b p false)
  | composite .. | custom .. => none

/-- Where a field is found; asking it of a composite or a custom field is an error. -/
def ref (f : Field) : Except Error FieldRef :=
  match f.ref? with
  | some r => .ok r
  | none => .error .missingAttribute

theorem ref?_isSome_iff (f : Field) :
    f.ref?.isSome = true ↔ f.kind = .plain ∨ f.kind = .isAlias ∨ f.kind = .join := by
  cases f <;> simp [ref?, kind]

/-- Only aliases are found among the aliases. -/
theorem ref?_isAlias {f : Field} {r : FieldRef} (h : f.ref? = some r) :
    r.isAlias = true ↔ f.kind = .isAlias := by
  cases f <;> simp [ref?] at h <;> subst h <;> simp [FieldRef.of, kind]

/-- A field of any type that nothing was declared about. -/
def untyped (name : String) : Field := plain name .any

end Field

end Sieve
