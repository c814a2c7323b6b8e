import Sieve.Meta
import Sieve.Cursor.Pivot
import Sieve.Memory
/-!
# Pages

A page is the rows of an answer, in the requested order, with data about the whole result.

* `Page.map` reads a value off every row;
* `Page.connection` gives every row its cursor, and says where the page stands.

Main statement: `length_map`.
-/

namespace Sieve

/-- The rows of an answer. -/
structure Page where
  /-- The rows. -/
  rows : List Row
  /-- Data about the whole result. -/
  info : Meta
  deriving Inhabited

/-- A row with its cursor. -/
structure Edge where
  /-- The token of the cursor. -/
  cursor : String
  /-- The row. -/
  row : Row

/-- The rows of a page with their cursors. -/
structure Connection where
  /-- The rows. -/
  edges : List Edge
  /-- Data about the whole result. -/
  info : Meta

namespace Page

/-- The values of a function of the rows, in order. -/
def map {α : Type} (p : Page) (f : Value → α) : List α :=
  p.rows.map (f ·.data)

@[simp] theorem length_map {α : Type} (p : Page) (f : Value → α) :
    (p.map f).length = p.rows.length := by
  simp [map]

/-- The rows of a page with their cursors. -/
def connection (p : Page) (schema : Option Schema) (make : Option CursorFunction) :
    Except Error Connection := do
  let names := p.info.request.orderNames
  let edges ← p.rows.mapM fun row => do
    return Edge.mk (← Cursor.tokenOf schema make names row.data) row
  return ⟨edges, p.info⟩

end Page

end Sieve
