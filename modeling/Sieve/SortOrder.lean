import Sieve.Schema
import Sieve.Direction
/-!
# Orderings

An ordering is a list of field names with directions, the most significant one first.

* `SortOrder.of` pairs names with directions, ascending where directions are missing;
* `SortOrder.reverse` enumerates rows in the opposite order;
* `SortOrder.expand` replaces composites by their members, `SortOrder.keys` also finds the
  fields in a row.

Main statements: `names_of`, `of_names_directions`, `reverse_reverse`, `names_reverse`.
-/

namespace Sieve

/-- A field to order by. -/
structure SortTerm where
  /-- The name of the field. -/
  field : String
  /-- The direction. -/
  direction : Direction
  deriving DecidableEq, Repr, Inhabited

/-- A field found in a row, to order by. -/
structure SortKey where
  /-- Where the field is found. -/
  ref : FieldRef
  /-- The direction. -/
  direction : Direction
  deriving DecidableEq, Inhabited

/-- Fields to order by, the most significant one first. -/
abbrev SortOrder := List SortTerm

/-- The direction that a value names. -/
def Direction.ofValue (v : Value) : Except Error Direction :=
  match v with
  | .text s =>
    match Direction.ofName? s with
    | some d => .ok d
    | none => .error (.notAMember "Direction" v)
  | _ => .error (.notAMember "Direction" v)

namespace SortOrder

/-- Pairs names with directions; names without one are ascending, further directions are not
used. -/
def of : List String → List Direction → SortOrder
  | [], _ => []
  | n :: ns, [] => ⟨n, .asc⟩ :: of ns []
  | n :: ns, d :: ds => ⟨n, d⟩ :: of ns ds

/-- Names in ascending order. -/
def ascending (names : List String) : SortOrder :=
  of names []

/-- The names of an ordering. -/
def names (s : SortOrder) : List String :=
  s.map (·.field)

/-- The ordering that enumerates rows in the opposite order. -/
def reverse (s : SortOrder) : SortOrder :=
  s.map fun t => ⟨t.field, t.direction.reverse⟩

@[simp] theorem names_of (ns : List String) (ds : List Direction) : names (of ns ds) = ns := by
  induction ns generalizing ds with
  | nil => rfl
  | cons n ns ih => cases ds <;> simp_all [of, names]

theorem of_nil (ns : List String) : of ns [] = ns.map (⟨·, .asc⟩) := by
  induction ns with
  | nil => rfl
  | cons n ns ih => rw [of, ih, List.map_cons]

/-- The names and the directions of an ordering stand for it. -/
@[simp] theorem of_names_directions (s : SortOrder) : of s.names (s.map (·.direction)) = s := by
  induction s with
  | nil => rfl
  | cons t s ih => exact congrArg (t :: ·) ih

@[simp] theorem reverse_reverse (s : SortOrder) : reverse (reverse s) = s := by
  induction s with
  | nil => rfl
  | cons t s ih => simpa [reverse] using ih

@[simp] theorem names_reverse (s : SortOrder) : names (reverse s) = names s := by
  simp [reverse, names]

/-- The terms that a term stands for: those of the members of a composite, in its direction. -/
def expandTerm (schema : Schema) (t : SortTerm) : Except Error SortOrder :=
  match schema.get? t.field with
  | some (.composite _ members) => .ok (members.map (⟨·, t.direction⟩))
  | some (.custom ..) => .error (.customOrder t.field)
  | _ => .ok [t]

/-- The ordering with composites replaced by their members. -/
def expand (schema : Option Schema) (s : SortOrder) : Except Error SortOrder :=
  match schema with
  | none => .ok s
  | some schema => do .ok (← s.mapM (expandTerm schema)).flatten

/-- The key of a term. -/
def key (schema : Option Schema) (t : SortTerm) : Except Error SortKey := do
  let f ← resolveField schema t.field
  let r ← f.ref
  return ⟨r, t.direction⟩

/-- The keys of an ordering, with composites replaced by their members. -/
def keys (schema : Option Schema) (s : SortOrder) : Except Error (List SortKey) := do
  (← s.expand schema).mapM (key schema)

end SortOrder

end Sieve
