/-!
# Pagination strategies

A page is cut out of the ordered rows by an offset, by a page number, or by a cursor: the first
rows after it or the last rows before it. Each strategy has two parameters.

Main statement: `Strategy.ofName?_name`.
-/

namespace Sieve

/-- A way to cut a page out of the rows. -/
inductive Strategy
  /-- The first rows after a cursor. -/
  | first
  /-- The last rows before a cursor. -/
  | last
  /-- A page number and a page size. -/
  | page
  /-- A limit and an offset. -/
  | offset
  deriving DecidableEq, Repr, Inhabited

namespace Strategy

/-- All strategies, in the order in which they are looked for. -/
def all : List Strategy := [first, last, page, offset]

/-- The name of a strategy in options. -/
def name : Strategy → String
  | first => "first"
  | last => "last"
  | page => "page"
  | offset => "offset"

/-- The strategy with a name. -/
def ofName? (s : String) : Option Strategy :=
  all.find? (·.name == s)

@[simp] theorem ofName?_name (p : Strategy) : ofName? p.name = some p := by
  cases p <;> decide

/-- Whether the strategy pages by cursors. -/
def byCursor : Strategy → Bool
  | first | last => true
  | _ => false

/-- The two parameters of a strategy, in the order in which they are looked for. -/
def parameters : Strategy → String × String
  | first => ("first", "after")
  | last => ("last", "before")
  | page => ("page", "page_size")
  | offset => ("limit", "offset")

end Strategy

end Sieve
