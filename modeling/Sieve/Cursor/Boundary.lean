import Sieve.Cursor.Token
import Sieve.SortOrder
import Sieve.Event
/-!
# Cursor boundaries

The predicate that a row comes strictly after the row of a cursor. For an ordering by `a`, `b` and
`c` with cursor values 1, 5 and 9 it is `a ≥ 1` and (`a > 1` or (`b ≥ 5` and (`b > 5` or `c > 9`))).

* `Cursor.boundary` builds the predicate from the last sort field to the first. Fields without a
  cursor value bound nothing, nor do composites, which are reported; aliases are refused.

Main statement: `boundary_nil`.
-/

namespace Sieve

/-- The comparison of what comes after a value. -/
def Direction.strictly (d : Direction) : Comparison :=
  if d.ascending then .gt else .lt

/-- The comparison of what does not come before a value. -/
def Direction.atLeast (d : Direction) : Comparison :=
  if d.ascending then .ge else .le

namespace Cursor

/-- The value of a sort field, if the cursor has one that is not null. -/
def bound? (c : Cursor) (field : String) : Option Value :=
  match c.lookup field with
  | some .null => none
  | v => v

/-- The boundary of a sort field that refers to a value, before the boundary of the fields that
follow it. -/
def bound (ref : FieldRef) (d : Direction) (v : Value) (inner : Option Predicate) : Predicate :=
  match inner with
  | none => .compare ref d.strictly v
  | some inner => .all [.compare ref d.atLeast v, .any [.compare ref d.strictly v, inner]]

/-- The predicate that a row comes after the row of the cursor. -/
def boundary (schema : Option Schema) (c : Cursor) : SortOrder → Traced Predicate
  | [] => .ok (.const true)
  | t :: rest => do
    let inner ← boundary schema c rest
    match ← Traced.lift (resolveField schema t.field) with
    | .isAlias name => .fail (.aliasCursor name)
    | .composite name _ => do
      Traced.log (.compositeCursorFieldIgnored name)
      return inner
    | field =>
      match c.bound? t.field with
      | none => return inner
      | some v => do
        let ref ← Traced.lift field.ref
        return bound ref t.direction v (if rest.isEmpty then none else some inner)

@[simp] theorem boundary_nil (schema : Option Schema) (c : Cursor) :
    boundary schema c [] = ⟨[], .ok (.const true)⟩ := rfl

end Cursor

end Sieve
