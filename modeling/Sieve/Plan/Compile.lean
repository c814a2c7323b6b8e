import Sieve.Plan.Basic
import Sieve.Options
import Sieve.Cursor.Boundary
import Sieve.Request
/-!
# Plans of requests

A request becomes a plan. For a cursor the plan asks for the rows after it, and for one row more
than requested, to find out whether there are any more; rows in front of a cursor are asked for in
the opposite order.

* `Request.predicate` are the filters of a request, `Request.plan` is its plan;
* `Request.lookback` asks for a row on the other side of the cursor.

Main statements: `pivot_withoutToken`, `lookback_unpivoted`.
-/

namespace Sieve

namespace Request

/-- Whether a cursor strategy is in use. -/
def byCursor (r : Request) : Bool :=
  r.strategy?.any Strategy.byCursor

/-- Whether rows in front of a cursor are asked for. -/
def isBackward (r : Request) : Bool :=
  r.strategy? == some .last

/-- The ordering in which the rows asked for come after the cursor. -/
def direct (r : Request) : SortOrder :=
  if r.isBackward then r.sort.reverse else r.sort

/-- The token of the cursor to start from; null if there is none. -/
def token (r : Request) : Value :=
  if r.isBackward then r.pagination.before else r.pagination.after

/-- The cursor to start from: the one that was decoded, if it holds anything, or that of the
token. -/
def pivot (r : Request) : Except Error (Option Cursor) :=
  if r.token.isNull then .ok none
  else
    match r.cursor with
    | some (e :: c) => .ok (some (e :: c))
    | _ => (fun c => some c.whole) <$> Cursor.decodeValue r.token

theorem pivot_withoutToken {r : Request} (h : r.token = .null) : r.pivot = .ok none := by
  simp [pivot, h]

/-- A request starts from the cursor of its token, whether the token was decoded before or not. -/
theorem pivot_of_token {r : Request} {token : String} {c : Cursor} (h : r.token = .text token)
    (hdec : Cursor.decode token = .ok c.raw) (hcursor : r.cursor = none ∨ r.cursor = some c) :
    r.pivot = .ok (some c) := by
  have hread : (fun d : RawCursor => some d.whole) <$> Cursor.decodeValue r.token =
      .ok (some c) := by
    rw [h, Cursor.decodeValue, hdec]
    exact congrArg (fun d => Except.ok (some d)) (RawCursor.whole_raw c)
  have hgiven : r.token.isNull = false := by rw [h]; rfl
  rw [pivot, hgiven, if_neg Bool.false_ne_true]
  -- An empty cursor is decoded again.
  rcases hcursor with hcursor | hcursor
  · rw [hcursor]
    exact hread
  · rw [hcursor]
    cases c with
    | nil => exact hread
    | cons e c => rfl

/-- What the filters of a request are compiled with. -/
def setting (schema : Option Schema) (o : Options) : Except Error Filter.Setting := do
  return ⟨schema, o.policy, ← o.extra.entries⟩

/-- The filters of a request as a predicate. -/
def predicate (r : Request) (schema : Option Schema) (o : Options) : Traced Predicate := do
  Filter.selectAll (← Traced.lift (setting schema o)) r.filters

/-- The number of rows to fetch for a cursor: one more than asked for. -/
def sizeAndOne (r : Request) : Except Error Value :=
  if r.size.isNull then .ok .null else r.size.plus (.int 1)

/-- The plan of a request for a cursor. -/
def cursorPlan (r : Request) (schema : Option Schema) (o : Options) : Traced Plan := do
  let p ← r.predicate schema o
  let p ← match ← Traced.lift r.pivot with
    | none => pure p
    | some c => do pure (p.and (← c.boundary schema r.direct))
  let keys ← Traced.lift (r.direct.keys schema)
  return ⟨p, keys, ← Traced.lift r.sizeAndOne, .null, r.isBackward⟩

/-- The plan of a request for a page or an offset. -/
def offsetPlan (r : Request) (schema : Option Schema) (o : Options) : Traced Plan := do
  let p ← r.predicate schema o
  let keys ← Traced.lift (r.sort.keys schema)
  return ⟨p, keys, r.size, ← Traced.lift r.skip, false⟩

/-- The plan of a request. -/
def plan (r : Request) (schema : Option Schema) (o : Options) : Traced Plan := do
  let plan ← if r.byCursor then r.cursorPlan schema o else r.offsetPlan schema o
  Traced.log (.planCompiled (schema.map (·.name)) r.strategy?
    (plan.ordering.map fun k => (k.ref.name, k.direction)) plan.limit plan.offset)
  return plan

/-- The plan for a row on the other side of the cursor, if the request has a cursor. -/
def lookback (r : Request) (schema : Option Schema) (o : Options) : Traced (Option Plan) :=
  if r.byCursor then do
    match ← Traced.lift r.pivot with
    | none => return none
    | some c => do
      let p ← r.predicate schema o
      let b ← c.boundary schema r.direct
      return some ⟨p.and (.not b), [], .int 1, .null, false⟩
  else .ok none

theorem lookback_unpivoted {r : Request} (h : r.byCursor = false) (schema : Option Schema)
    (o : Options) : r.lookback schema o = .ok none := by
  simp [lookback, h]

end Request

end Sieve
