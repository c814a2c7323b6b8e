import Sieve.Schema
/-!
# Annotations

The attributes of a class are annotated with types. A schema can be derived from them: each public
attribute of an instance becomes a column whose storage type its annotation says.

* `Datatype` is a type that annotations name, `Annotation` an annotation;
* `Annotation.same` tells annotations apart, `Annotation.unionOf` joins alternatives;
* `Annotation.storage` is the storage type of the values that an annotation allows;
* `Annotation.bare` drops notes;
* `Declarations.ofAttributes` adds the columns of annotated attributes to declarations.

Main statements: `unionOf_named`, `storage_column`, `storage_noted`.
-/

namespace Sieve

/-- A type that annotations name. -/
inductive Datatype
  /-- Truth values. -/
  | boolean
  /-- Integers. -/
  | integer
  /-- Doubles. -/
  | double
  /-- Decimal numbers. -/
  | decimal
  /-- Texts. -/
  | text
  /-- Points in time. -/
  | datetime
  /-- Days. -/
  | date
  /-- Times of a day. -/
  | time
  /-- Identifiers. -/
  | uuid
  /-- Lists. -/
  | list
  /-- Tuples. -/
  | tuple
  /-- Sets. -/
  | set
  /-- Sets that cannot change. -/
  | frozenSet
  /-- Maps. -/
  | map
  /-- Byte strings. -/
  | bytes
  /-- All objects. -/
  | object
  /-- All values. -/
  | any
  /-- Null alone. -/
  | null
  /-- The members of an enumeration. -/
  | enumeration (name : String)
  deriving DecidableEq, Repr, Inhabited

namespace Datatype

/-- The storage type of the values of a type. -/
def storage : Datatype → StorageType
  | boolean => .boolean
  | integer => .integer
  | double => .float
  | decimal => .decimal
  | text => .string
  | datetime => .datetime
  | date => .date
  | uuid => .uuid
  | list | tuple | set => .array
  | map => .map
  | enumeration _ => .enum
  | time | frozenSet | bytes | object | any | null => .any

/-- Whether other types can be derived from a type. -/
def isExtensible : Datatype → Bool
  | boolean | null | enumeration _ => false
  | _ => true

end Datatype

/-- A type as an attribute is annotated with it. -/
inductive Annotation
  /-- A named type. -/
  | named (type : Datatype)
  /-- A type of its own, derived from a named one. -/
  | derived (type : Datatype)
  /-- A type that is left open. -/
  | parameter
  /-- A named type with types for its parts. -/
  | parametric (type : Datatype) (parts : List Annotation)
  /-- A mapped column. -/
  | column (of : Annotation)
  /-- One of several alternatives. -/
  | union (alternatives : List Annotation)
  /-- An attribute of the class instead of its instances. -/
  | shared (of : Annotation)
  /-- One of several values. -/
  | choice (values : List Value)
  /-- An annotation with a note. -/
  | noted (of : Annotation)
  deriving Inhabited

namespace Annotation

/-! ### Alternatives -/

mutual

/-- Whether two annotations are the same. The order of alternatives does not count, and a derived
type is new wherever it is written. -/
def same : Annotation → Annotation → Bool
  | named a, named b => a == b
  | parameter, parameter => true
  | parametric a ps, parametric b qs => a == b && sameEach ps qs
  | column a, column b => same a b
  | union as, union bs => as.length == bs.length && among as bs
  | shared a, shared b => same a b
  | choice vs, choice ws => vs.all (· ∈ ws) && ws.all (· ∈ vs)
  | noted a, noted b => same a b
  | _, _ => false

/-- Whether two lists of annotations are the same item by item. -/
def sameEach : List Annotation → List Annotation → Bool
  | [], bs => bs.isEmpty
  | _ :: _, [] => false
  | a :: as, b :: bs => same a b && sameEach as bs

/-- Whether each annotation of one list is the same as one of another list. -/
def among : List Annotation → List Annotation → Bool
  | [], _ => true
  | a :: as, bs => bs.any (same a) && among as bs

end

/-- The annotations without those that are the same as an earlier one. -/
def distinct (as : List Annotation) : List Annotation :=
  as.foldl (fun kept a => if kept.any (same a) then kept else kept ++ [a]) []

/-- The alternatives that an annotation stands for. -/
def alternatives : Annotation → List Annotation
  | union as => as
  | a => [a]

/-- Whether an annotation is about the class itself. -/
def isShared : Annotation → Bool
  | shared _ => true
  | _ => false

/-- One of some alternatives, at least one. Alternatives of alternatives count as their own, each is
kept once, and a single one stands for itself. Only attributes are shared, not alternatives. -/
def unionOf (as : List Annotation) : Except Error Annotation :=
  if as.isEmpty || as.any isShared then .error .mismatch
  else
    match distinct (as.flatMap alternatives) with
    | [a] => .ok a
    | as => .ok (union as)

@[simp] theorem unionOf_named (t : Datatype) : unionOf [named t] = .ok (named t) := rfl

/-- An annotation or null. -/
def optional (a : Annotation) : Except Error Annotation :=
  unionOf [a, named .null]

/-- An attribute of the class; it is not shared twice. -/
def sharedOf (a : Annotation) : Except Error Annotation :=
  if a.isShared then .error .mismatch else .ok (shared a)

/-- A type derived from an annotation. -/
def derivedOf : Annotation → Except Error Annotation
  | named t | derived t => if t.isExtensible then .ok (derived t) else .error .mismatch
  | _ => .error .mismatch

/-! ### Storage types -/

/-- Whether an annotation allows null only. -/
def isNull : Annotation → Bool
  | named .null => true
  | _ => false

mutual

/-- The storage type of the values that an annotation allows. -/
def storage : Annotation → StorageType
  | named t | derived t | parametric t _ => t.storage
  | column a => storage a
  | union as =>
    match storages as with
    | [t] => t
    | _ => .any
  | parameter | shared _ | choice _ | noted _ => .any

/-- The storage types of alternatives other than null. -/
def storages : List Annotation → List StorageType
  | [] => []
  | a :: as => if a.isNull then storages as else storage a :: storages as

end

@[simp] theorem storage_column (a : Annotation) : (column a).storage = a.storage := by
  simp [storage]

@[simp] theorem storage_noted (a : Annotation) : (noted a).storage = .any := by
  simp [storage]

/-! ### Attributes -/

mutual

/-- An annotation without notes. -/
def bare : Annotation → Except Error Annotation
  | noted a => bare a
  | parametric t as => do return parametric t (← bareEach as)
  | column a => do return column (← bare a)
  | union as => do unionOf (← bareEach as)
  | shared a => do sharedOf (← bare a)
  | a => .ok a

/-- Annotations without notes. -/
def bareEach : List Annotation → Except Error (List Annotation)
  | [] => .ok []
  | a :: as => do
    let b ← bare a
    return b :: (← bareEach as)

end

/-- Whether the name of an attribute is meant for readers outside its class. -/
def isPublic (name : String) : Bool :=
  !"_".isPrefixOf name

end Annotation

/-- The annotations of attributes by name; the last one of a name counts, in the place of the
first. -/
def distinctAttributes (attributes : List (String × Annotation)) : List (String × Annotation) :=
  attributes.foldl
    (fun known e =>
      if known.any (·.1 == e.1) then known.map fun k => if k.1 == e.1 then e else k
      else known ++ [e])
    []

/-- Declarations with the columns of annotated attributes: those of instances that are public. -/
def Declarations.ofAttributes (d : Declarations) (attributes : List (String × Annotation)) :
    Except Error Declarations := do
  let bare ← (distinctAttributes attributes).mapM fun e => do return (e.1, ← e.2.bare)
  let columns := bare.filter fun e => Annotation.isPublic e.1 && !e.2.isShared
  return { d with fields := columns.map fun e => (e.1, some (.text e.2.storage.name)) }

end Sieve
