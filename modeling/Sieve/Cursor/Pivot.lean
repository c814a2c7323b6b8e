import Sieve.Cursor.Token
import Sieve.Selection
import Sieve.Value.Attribute
/-!
# Cursors of rows

The cursor of a row holds the values of its sort fields.

* `Field.read` reads a field off a row, a composite as the list of the values of its members;
* `Cursor.ofRow` is the cursor of a row, `Cursor.ends` are the tokens of the first and the last of
  some rows.

Main statements: `read_plain`, `ends_nil`.
-/

namespace Sieve

namespace Field

/-- The value of a field in a row, with composites expanded at most `depth` levels deep. -/
def readWithin (schema : Option Schema) (row : Value) : Nat → Field → Except Error Value
  | 0, _ => .error .endless
  | depth + 1, field =>
    match field with
    | .composite _ members => do
      return .list (← members.mapM fun n => do readWithin schema row depth (← resolveField schema n))
    | .join _ _ _ path _ _ => row.atPath path
    | .plain name _ | .isAlias name | .custom name .. => .ok (row.named name)

/-- The value of a field in a row. Composites that hold themselves have none. -/
def read (schema : Option Schema) (row : Value) (field : Field) : Except Error Value :=
  readWithin schema row (levels schema) field

@[simp] theorem read_plain (schema : Option Schema) (row : Value) (name : String)
    (t : StorageType) : read schema row (.plain name t) = .ok (row.named name) := rfl

end Field

/-- A function that gives the cursor of a row for the names of the sort fields. -/
abbrev CursorFunction := Value → List String → Except Error Cursor

namespace Cursor

/-- The cursor of a row: the values of the named fields. -/
def ofRow (schema : Option Schema) (row : Value) (names : List String) : Except Error Cursor :=
  names.foldlM (fun c n => do return c.put n (← (← resolveField schema n).read schema row)) []

/-- The token of a row, with the cursor made by a function if one is given. -/
def tokenOf (schema : Option Schema) (make : Option CursorFunction) (names : List String)
    (row : Value) : Except Error String := do
  encode (← (make.getD (ofRow schema)) row names)

/-- The tokens of the first and the last row; without rows there are none. -/
def ends (schema : Option Schema) (make : Option CursorFunction) (names : List String)
    (rows : List Value) : Except Error (Option (String × String)) :=
  match rows with
  | [] => .ok none
  | row :: rest => do
    let start ← tokenOf schema make names row
    let stop ← tokenOf schema make names (rest.getLastD row)
    return some (start, stop)

@[simp] theorem ends_nil (schema : Option Schema) (make : Option CursorFunction)
    (names : List String) : ends schema make names [] = .ok none := rfl

end Cursor

end Sieve
