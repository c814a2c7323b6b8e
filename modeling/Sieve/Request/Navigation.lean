import Sieve.Request
/-!
# Neighbouring requests

Requests that follow from a request: with another ordering, with other filters, for another part of
the result.

* `Request.pushOrder` makes a field the most significant one to order by, or changes its direction;
* `Request.toPage`, `toOffset` and `toCursor` change to a strategy and keep the number of rows;
  `nextPage`, `previousPage`, `nextOffset` and `previousOffset` move by one step.

Main statements: `nextDirection_nil`, `toPage_int`, `toOffset_int`, `size_toPage`,
`size_toOffset`.
-/

namespace Sieve

namespace Request

/-! ### Ordering -/

/-- The direction after the current one: the next one of a cycle, or without a cycle the toggled
one. A direction that is not in the cycle is followed by the first one. -/
def nextDirection (current : Direction) (cycle : List Direction) : Direction :=
  match cycle with
  | [] => current.toggle
  | d :: ds =>
    match (d :: ds).idxOf? current with
    | none => d
    | some i => ((d :: ds)[i + 1]?).getD d

@[simp] theorem nextDirection_nil (current : Direction) :
    nextDirection current [] = current.toggle := rfl

/-- Whether a field is the most significant one to order by. -/
def isPrimary (r : Request) (field : String) : Bool :=
  r.orderNames.head? == some field

/-- The ordering with a field in front, in its next direction if it was in front already. -/
def pushed (sort : SortOrder) (field : String) (cycle : List Direction) : SortOrder :=
  match sort with
  | [] => [⟨field, cycle.headD .asc⟩]
  | t :: rest =>
    if t.field = field then ⟨field, nextDirection t.direction cycle⟩ :: rest
    else ⟨field, cycle.headD .asc⟩ :: (t :: rest).filter (·.field != field)

/-- A value in place of a parameter, if the parameter is given. -/
def inPlace (given replacement : Value) : Value :=
  if given.isNull then .null else replacement

/-- The request with an ordering, from the start of the result. -/
def restarted (r : Request) (sort : SortOrder) : Request :=
  { r with
    orderBy := some sort.names
    directions := some (sort.map (·.direction))
    pagination := { r.pagination with
      offset := inPlace r.pagination.offset (.int 0)
      page := inPlace r.pagination.page (.int 1)
      after := .null
      before := .null }
    cursor := none }

/-- The request with a field as the most significant one to order by. -/
def pushOrder (r : Request) (field : String) (cycle : List Direction) : Request :=
  r.restarted (pushed r.sort field cycle)

/-- The request with a field as the most significant one to order by. The directions are read as
far as they are used: all of them where the field changes its direction, else the first one. -/
def pushOrderNamed (r : Request) (field : String) (cycle : List Value) :
    Except Error Request := do
  let used := if r.isPrimary field then cycle else cycle.take 1
  return r.pushOrder field (← used.mapM Direction.ofValue)

/-- The request without an ordering. -/
def resetOrder (r : Request) : Request :=
  { r with orderBy := none, directions := none }

/-! ### Filters -/

/-- The request without filters. -/
def resetFilters (r : Request) : Request :=
  { r with filters := [] }

/-- The request with a filter in place of the conditions on its field. -/
def withFilter (r : Request) (f : Filter) : Except Error Request := do
  return { r with filters := ← Filter.place f r.filters }

/-- The request without the conditions on a field. -/
def withoutFilter (r : Request) (field : String) : Request :=
  { r with filters := Filter.drop field r.filters }

/-- The first condition on a field. -/
def filterFor (r : Request) (field : String) : Option Condition :=
  Filter.first? field r.filters

/-! ### Parts of the result -/

/-- The request with other parameters of pagination. -/
def paginated (r : Request) (p : Pagination) : Request :=
  { r with pagination := p, cursor := none }

/-- The request for a page; the first page is the least one. -/
def toPage (r : Request) (page : Value) : Except Error Request := do
  let page ← Value.atLeast (.int 1) page
  return r.paginated { Pagination.empty with page := page, pageSize := r.size }

/-- The page that a request stands on; an unset or zero page counts as the first one. -/
def currentPage (r : Request) : Value :=
  if r.pagination.page.truthy then r.pagination.page else .int 1

/-- The request for the next page, at most the last one if their number is known. -/
def nextPage (r : Request) (totalPages : Value) : Except Error Request := do
  let target ← r.currentPage.plus (.int 1)
  if totalPages.isNull then r.toPage target
  else r.toPage (← target.atMost (← totalPages.raisedTo (.int 1)))

/-- The request for the previous page. -/
def previousPage (r : Request) : Except Error Request := do
  r.toPage (← r.currentPage.minus (.int 1))

/-- The request for the rows from an offset on; the least offset is zero. -/
def toOffset (r : Request) (offset : Value) : Except Error Request := do
  let offset ← Value.atLeast (.int 0) offset
  return r.paginated { Pagination.empty with offset := offset, limit := r.size }

/-- The number of rows asked for; without one it is zero. -/
def sizeOrZero (r : Request) : Value :=
  if r.size.truthy then r.size else .int 0

/-- The number of rows to skip; without one it is zero. -/
def skipOrZero (r : Request) : Except Error Value := do
  let skip ← r.skip
  return if skip.truthy then skip else .int 0

/-- The request for the rows after those asked for, or the request itself if there are none. -/
def nextOffset (r : Request) (totalCount : Value) : Except Error Request := do
  let target ← (← r.skipOrZero).plus r.sizeOrZero
  if totalCount.isNull then r.toOffset target
  else if ← totalCount.precedes true target then return r
  else r.toOffset target

/-- The request for the rows in front of those asked for. -/
def previousOffset (r : Request) : Except Error Request := do
  r.toOffset (← (← r.skipOrZero).minus r.sizeOrZero)

/-- The request for the rows after a token, or in front of it. -/
def toCursor (r : Request) (token : Value) (forward : Bool) : Request :=
  r.paginated (if forward then { Pagination.empty with first := r.size, after := token }
    else { Pagination.empty with last := r.size, before := token })

/-- The request for a page with a number. -/
theorem toPage_int (r : Request) (page : Int) :
    r.toPage (.int page) =
      .ok (r.paginated { Pagination.empty with page := .int (max 1 page), pageSize := r.size }) := by
  simp [toPage, bind, Except.bind, pure, Except.pure]

/-- The request for an offset with a number. -/
theorem toOffset_int (r : Request) (offset : Int) :
    r.toOffset (.int offset) =
      .ok (r.paginated { Pagination.empty with offset := .int (max 0 offset), limit := r.size }) := by
  simp [toOffset, bind, Except.bind, pure, Except.pure]

/-- Another page has as many rows. -/
theorem size_toPage {r s : Request} {page : Int} (h : r.toPage (.int page) = .ok s) :
    s.size = r.size := by
  rw [toPage_int] at h
  cases h
  rfl

/-- Another offset keeps the number of rows. -/
theorem size_toOffset {r s : Request} {offset : Int} (h : r.toOffset (.int offset) = .ok s) :
    s.size = r.size := by
  rw [toOffset_int] at h
  cases h
  simp [paginated, size, Pagination.size, Pagination.strategy?, Pagination.empty, Pagination.uses,
    Pagination.parameters, Value.isNull, Strategy.all, List.find?]

end Request

end Sieve
