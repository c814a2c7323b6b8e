import Sieve.Request.Navigation
/-!
# Data about results

What a page of rows knows about its place in the whole result: neighbouring pages, offsets and
cursors, and counts as far as they are known.

* `Meta.ofOffset` makes the data for pages and offsets, `Meta.ofCursor` for cursors, and
  `Meta.of` chooses between them;
* `Meta.pagesOf` and `Meta.pageOf` divide as doubles do and round up.

Main statements: `pagesOf_zero`, `request_ofCursor`, `invalid_errors`.
-/

namespace Sieve

/-- Data about a result; what is not known is null. -/
structure Meta where
  /-- The request that was answered. -/
  request : Request
  /-- Whether there are rows after the page; it counts as said if the value counts as set. -/
  hasNext : Value
  /-- Whether there are rows in front of the page, in the same way. -/
  hasPrevious : Value
  /-- The token of the first row. -/
  startCursor : Value
  /-- The token of the last row. -/
  endCursor : Value
  /-- The number of rows skipped. -/
  currentOffset : Value
  /-- The number of the page. -/
  currentPage : Value
  /-- The offset of the next page. -/
  nextOffset : Value
  /-- The number of the next page. -/
  nextPage : Value
  /-- The offset of the previous page. -/
  previousOffset : Value
  /-- The number of the previous page. -/
  previousPage : Value
  /-- The number of rows on a page. -/
  pageSize : Value
  /-- The number of rows in the whole result. -/
  totalCount : Value
  /-- The number of pages in the whole result. -/
  totalPages : Value
  /-- What is wrong with the parameters. -/
  errors : Messages
  deriving Inhabited

namespace Meta

/-- Data that says nothing but which request was answered. -/
def bare (r : Request) : Meta :=
  ⟨r, .bool false, .bool false, .null, .null, .null, .null, .null, .null, .null, .null,
    .null, .null, .null, []⟩

/-- The data in place of a result when the parameters are invalid. -/
def invalid (errors : Messages) : Meta :=
  { bare .all with errors := errors }

@[simp] theorem invalid_errors (errors : Messages) : (invalid errors).errors = errors := rfl

/-- Whether the parameters were valid. -/
def isValid (m : Meta) : Bool := m.errors.isEmpty

/-! ### Arithmetic of pages -/

/-- The number of pages of a result; without a page size there is a single page. -/
def pagesOf (count size : Value) : Except Error Value := do
  if ← count.equal (.int 0) then return .int 0
  else if !size.truthy then return .int 1
  else return .int (← count.ceilQuotient size)

/-- An empty result has no pages. -/
@[simp] theorem pagesOf_zero (size : Value) : pagesOf (.int 0) size = .ok (.int 0) := by
  simp [pagesOf, bind, Except.bind, pure, Except.pure]

/-- The number of the page that an offset is on, at most the number of pages. An offset inside a
page counts for the next one. -/
def pageOf (offset size pages : Value) : Except Error Value := do
  let page ← offset.ceilQuotient size
  if pages.truthy then (Value.atLeast (.int 1)) (← (Value.int (page + 1)).atMost pages)
  else return .int 1

/-! ### Data of the strategies -/

/-- Whether rows are skipped. -/
def skips (offset : Value) : Except Error Bool := Value.precedes false (.int 0) offset

/-- The data of a result without pages. -/
def unpaged (r : Request) (offset count pages : Value) : Except Error Meta := do
  return { bare r with
    currentOffset := offset
    currentPage := .int 1
    totalCount := count
    totalPages := pages
    hasPrevious := .bool (← skips offset) }

/-- A value that exists only under a condition; else it is null. -/
def onlyIf (condition : Bool) (v : Except Error Value) : Except Error Value :=
  if condition then v else .ok .null

/-- The data of a page of `size` rows from an offset on. -/
def paged (r : Request) (offset size count pages page : Value) : Except Error Meta := do
  let hasPrevious ← skips offset
  let previousOffset ← onlyIf hasPrevious do Value.atLeast (.int 0) (← offset.minus size)
  let previousPage ← onlyIf (← Value.precedes false (.int 1) page) (page.minus (.int 1))
  let stop ← offset.plus size
  let hasNext ← stop.precedes false count
  let nextPage ← onlyIf hasNext do pages.atMost (← page.plus (.int 1))
  return { bare r with
    hasNext := .bool hasNext
    hasPrevious := .bool hasPrevious
    currentOffset := offset
    currentPage := page
    nextOffset := if hasNext then stop else .null
    nextPage := nextPage
    previousOffset := previousOffset
    previousPage := previousPage
    pageSize := size
    totalCount := count
    totalPages := pages }

/-- The data of the answer to a request for a page, an offset, or everything. -/
def ofOffset (r : Request) (count : Value) : Except Error Meta := do
  let offset ← r.skipOrZero
  let pages ← pagesOf count r.size
  if r.size.truthy then paged r offset r.size count pages (← pageOf offset r.size pages)
  else unpaged r offset count pages

/-- What was found out about the answer to a request. -/
structure Findings where
  /-- The number of rows in the whole result; null if it is not known. -/
  totalCount : Value
  /-- The number of rows fetched, with the one after the page. -/
  fetched : Value
  /-- The token of the first row. -/
  startCursor : Value
  /-- The token of the last row. -/
  endCursor : Value
  /-- Whether there are rows on the other side of the cursor. -/
  beyond : Value

/-- Whether there are rows on the other side of the cursor of a token; without a token there are
none. -/
def beyondOf (token : Value) (f : Findings) : Value :=
  if token.isNull then .bool false else f.beyond

/-- The data of the answer to a request for rows after or before a cursor. -/
def ofCursor (r : Request) (f : Findings) : Except Error Meta := do
  let size := r.sizeOrZero
  let more := Value.bool (← size.precedes false f.fetched)
  let forward := r.strategy? == some .first
  return { bare r with
    hasNext := if forward then more else beyondOf r.pagination.before f
    hasPrevious := if forward then beyondOf r.pagination.after f else more
    startCursor := f.startCursor
    endCursor := f.endCursor
    pageSize := if size.truthy then size else .null
    totalCount := f.totalCount }

/-- The data are about the request. -/
theorem request_ofCursor {r : Request} {f : Findings} {m : Meta} (h : ofCursor r f = .ok m) :
    m.request = r := by
  unfold ofCursor at h
  cases hp : r.sizeOrZero.precedes false f.fetched with
  | error e => simp [hp, bind, Except.bind] at h
  | ok more =>
    simp only [hp, bind, Except.bind, pure, Except.pure, Except.ok.injEq] at h
    rw [← h]
    rfl

/-- The data of the answer to a request. -/
def of (r : Request) (f : Findings) : Except Error Meta :=
  if r.strategy?.any Strategy.byCursor then ofCursor r f
  else ofOffset r (if f.totalCount.truthy then f.totalCount else .int 0)

/-! ### Neighbours -/

/-- The request for the rows after the page. -/
def nextCursor (m : Meta) : Request := m.request.toCursor m.endCursor true

/-- The request for the rows in front of the page. -/
def previousCursor (m : Meta) : Request := m.request.toCursor m.startCursor false

end Meta

end Sieve
