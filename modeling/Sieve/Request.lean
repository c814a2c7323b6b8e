import Sieve.Filter
import Sieve.SortOrder
import Sieve.Strategy
import Sieve.Cursor.Token
import Sieve.Value.Arithmetic
/-!
# Requests

A request says which rows are asked for: filters, an ordering, and the part of the result in the
terms of one of four pagination strategies.

* `Pagination` holds the parameters of all strategies, `Pagination.strategy?` is the one in use;
* `Request` adds filters and ordering. `Request.size` is the number of rows asked for,
  `Request.skip` the number of rows to skip.

Main statements: `strategy?_empty`, `skip_page`, `sort_names`.
-/

namespace Sieve

/-- The parameters of the pagination strategies, as they were given; null stands for one that is not
given. Sizes, offsets and page numbers that were checked are numbers. -/
structure Pagination where
  /-- The number of rows from an offset. -/
  limit : Value
  /-- The number of rows to skip. -/
  offset : Value
  /-- The number of the page. -/
  page : Value
  /-- The number of rows on a page. -/
  pageSize : Value
  /-- The number of rows after a cursor. -/
  first : Value
  /-- The token of the row to start after. -/
  after : Value
  /-- The number of rows before a cursor. -/
  last : Value
  /-- The token of the row to end before. -/
  before : Value
  deriving DecidableEq, Inhabited

namespace Pagination

/-- No parameter at all. -/
def empty : Pagination :=
  ⟨.null, .null, .null, .null, .null, .null, .null, .null⟩

/-- The values of the two parameters of a strategy. -/
def parameters (p : Pagination) : Strategy → Value × Value
  | .first => (p.first, p.after)
  | .last => (p.last, p.before)
  | .page => (p.page, p.pageSize)
  | .offset => (p.limit, p.offset)

/-- Whether some parameter of a strategy is given. -/
def uses (p : Pagination) (s : Strategy) : Bool :=
  !(p.parameters s).1.isNull || !(p.parameters s).2.isNull

/-- The strategies of which some parameter is given. -/
def used (p : Pagination) : List Strategy :=
  Strategy.all.filter p.uses

/-- The strategy in use: the first one of which some parameter is given. -/
def strategy? (p : Pagination) : Option Strategy :=
  Strategy.all.find? p.uses

@[simp] theorem strategy?_empty : empty.strategy? = none := rfl

/-- The name of the first given parameter of a strategy. -/
def givenParameter (p : Pagination) (s : Strategy) : String :=
  if (p.parameters s).1.isNull then s.parameters.2 else s.parameters.1

/-- The number of rows asked for; null if it is not given. -/
def size (p : Pagination) : Value :=
  match p.strategy? with
  | some .page => p.pageSize
  | some .first => p.first
  | some .last => p.last
  | _ => p.limit

/-- The number of rows to skip: that of the page, or else the offset; null if it is not given. -/
def skip (p : Pagination) : Except Error Value :=
  if p.page.isNull || p.pageSize.isNull then .ok p.offset
  else do (← p.page.minus (.int 1)).times p.pageSize

/-- A page is preceded by the pages with lower numbers. -/
theorem skip_page {p : Pagination} {page size : Int} (hp : p.page = .int page)
    (hs : p.pageSize = .int size) : p.skip = .ok (.int ((page - 1) * size)) := by
  simp [skip, hp, hs, Value.isNull, bind, Except.bind]

/-- The parameters in the order in which they are compared. -/
def toList (p : Pagination) : List Value :=
  [p.limit, p.offset, p.page, p.pageSize, p.first, p.after, p.last, p.before]

/-- Whether two lists of parameters have equal values throughout. -/
def equal (p q : Pagination) : Except Error Bool :=
  if p = q then .ok true else Value.equalItems p.toList q.toList

end Pagination

/-- What is asked of a collection of rows. -/
structure Request where
  /-- The filters that rows have to meet. -/
  filters : List Filter
  /-- The names of the fields to order by. -/
  orderBy : Option (List String)
  /-- The directions of these fields. -/
  directions : Option (List Direction)
  /-- The part of the result. -/
  pagination : Pagination
  /-- The cursor that the token of the pagination was decoded to. -/
  cursor : Option Cursor
  deriving Inhabited

namespace Request

/-- The request for everything. -/
def all : Request := ⟨[], none, none, .empty, none⟩

/-- The strategy in use. -/
def strategy? (r : Request) : Option Strategy := r.pagination.strategy?

/-- The names of the fields to order by; without an ordering none. -/
def orderNames (r : Request) : List String := r.orderBy.getD []

/-- The ordering. -/
def sort (r : Request) : SortOrder :=
  SortOrder.of r.orderNames (r.directions.getD [])

@[simp] theorem sort_names (r : Request) : r.sort.names = r.orderNames := by
  simp [sort]

/-- The number of rows asked for; null if it is not given. -/
def size (r : Request) : Value := r.pagination.size

/-- The number of rows to skip; null if it is not given. -/
def skip (r : Request) : Except Error Value := r.pagination.skip

/-- Whether two requests are equal; the decoded cursor does not count, it follows from the token. -/
def equal (a b : Request) : Except Error Bool :=
  if a.orderBy = b.orderBy ∧ a.directions = b.directions then do
    if ← Filter.equalAll a.filters b.filters then a.pagination.equal b.pagination
    else return false
  else .ok false

end Request

end Sieve
