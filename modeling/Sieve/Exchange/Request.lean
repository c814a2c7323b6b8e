import Sieve.Exchange.Filter
import Sieve.Exchange.Schema
import Sieve.Validation
import Sieve.Page
import Sieve.Plan.Basic
/-!
# Requests and answers as JSON documents

* `Request.ofJson` and `Params.ofJson` read requests and parameters, `Overrides.ofFields` the
  options of a call;
* `Request.toJson`, `Options.toJson`, `Plan.toJson`, `Meta.toJson` and `Page.toJson` write.

Main statement: `overrides_nil`.
-/

namespace Sieve

/-- The direction of a document. -/
def Direction.ofJson (j : Json) : Except Error Direction := Direction.ofValue j.toValue

/-- The directions of a list. -/
def Direction.listOfJson (j : Json) : Except Error (List Direction) := j.items.mapM Direction.ofJson

/-- The cursor of a list of pairs. -/
def Cursor.ofPairs (j : Json) : Cursor :=
  (j.items.map fun e => (e.items.map Json.toValue)).foldl (fun c e =>
    match e with
    | [.text k, v] => c.put k v
    | _ => c) []

/-- The cursor of a value that lists pairs; a key that is no text counts as its text. -/
def Cursor.ofValue (v : Value) : Except Error Cursor := do
  return (← v.entries).map fun e => (e.1.render, e.2)

/-- The list of pairs of what a token holds. -/
def RawCursor.toPairs (c : RawCursor) : Json :=
  .array (c.map fun e => .array [.ofRaw e.1, e.2.toJson])

/-- The list of pairs of a cursor. -/
def Cursor.toPairs (c : Cursor) : Json := RawCursor.toPairs c.raw

/-- The request of an object of its parts, none of which is checked. -/
def Request.ofFields (j : Json) : Except Error Request := do
  let fs ← Filter.listOfJson (j.part "filters")
  let ds ← match j.given? "order_directions" with
    | none => pure none
    | some ds => some <$> Direction.listOfJson ds
  return {
    filters := fs
    orderBy := (j.given? "order_by").map Json.strings
    directions := ds
    pagination := {
      limit := j.valueAt "limit"
      offset := j.valueAt "offset"
      page := j.valueAt "page"
      pageSize := j.valueAt "page_size"
      first := j.valueAt "first"
      after := j.valueAt "after"
      last := j.valueAt "last"
      before := j.valueAt "before" }
    cursor := (j.given? "decoded_cursor").map Cursor.ofPairs }

/-- The request of a document; without one it is the request for everything. -/
def Request.ofJson? : Option Json → Except Error Request
  | none => .ok .all
  | some j => Request.ofFields ((j.field? "$request").getD j)

/-- The document of a request; its number of rows to skip has to exist. -/
def Request.toJson (r : Request) : Except Error Json := do
  let p := r.pagination
  return .object [("filters", Filter.listToJson r.filters),
    ("order_by", (r.orderBy.map Json.texts).getD .null),
    ("order_directions", (r.directions.map fun ds => .texts (ds.map Direction.name)).getD .null),
    ("limit", p.limit.toJson), ("offset", p.offset.toJson), ("page", p.page.toJson),
    ("page_size", p.pageSize.toJson), ("first", p.first.toJson), ("after", p.after.toJson),
    ("last", p.last.toJson), ("before", p.before.toJson),
    ("decoded_cursor", (r.cursor.map Cursor.toPairs).getD .null),
    ("pagination_type", .ofOption (r.strategy?.map Strategy.name)),
    ("page_limit", r.size.toJson), ("effective_offset", (← r.skip).toJson)]

/-- Entries with text keys. -/
def Json.textEntries (j : Json) : List (Value × Value) :=
  j.entries.map fun e => (.text e.1, e.2.toValue)

/-- The parameters that the attributes of a request are, none of which is checked. Only the
directions are read. -/
def Params.ofRequestFields (j : Json) : Except Error Params := do
  let ds ← match j.given? "order_directions" with
    | none => pure []
    | some ds => do
      pure [(Value.text "order_directions",
        Value.tuple ((← Direction.listOfJson ds).map fun d => .text d.name))]
  let given := j.textEntries.filter fun e =>
    e.1 != .text "order_directions" && e.1 != .text "decoded_cursor"
  let fs := if (j.field? "filters").isSome then [] else [(Value.text "filters", Value.list [])]
  return .entries (given ++ ds ++ fs)

/-- The parameters of a document: a request, scalar parameters that have to be valid, or data. -/
def Params.ofJson (j : Json) : Except Error Params := do
  let v ← j.decode
  match j with
  | .object [("$request", r)] => Params.ofRequestFields r
  | .object [("$params", p)] => do
    let s ← Scalars.readStrictly p.textEntries
    return .entries ((Params.ofScalars s).map fun e => (.text e.1, e.2))
  | _ =>
    match v with
    | .map es => return .entries es
    | v => return .other v

/-! ### Options -/

/-- The properties of a document. -/
def Properties.ofJson (j : Json) : Except Error Properties :=
  match Properties.read j.textEntries with
  | .ok p => .ok p
  | .error ds => .error (.invalidModel ds)

namespace Overrides

/-- The names of all options. -/
def names : List String :=
  ["default_limit", "max_limit", "default_order", "pagination_types", "default_pagination_type",
    "replace_invalid_params", "ordering", "filtering", "on_unsupported_composite_op",
    "extra_opts", "cursor_value_func"]

/-- The options of fields, later fields over earlier ones. Cursor functions are known by name. -/
def ofFields (functions : String → Option CursorFunction) (fields : List (String × Json)) :
    Overrides :=
  let j := Json.object fields.reverse
  { defaultLimit := j.valueAt "default_limit"
    maxLimit := j.valueAt "max_limit"
    defaultOrder := j.valueAt "default_order"
    paginationTypes := j.valueAt "pagination_types"
    defaultPaginationType := j.valueAt "default_pagination_type"
    replaceInvalid := j.valueAt "replace_invalid_params"
    ordering := j.valueAt "ordering"
    filtering := j.valueAt "filtering"
    policy := j.valueAt "on_unsupported_composite_op"
    extra := j.valueAt "extra_opts"
    cursorFunction := (j.string? "cursor_value_func").bind functions
    unknown := ((fields.map (·.1)).filter (!names.contains ·)).eraseDups }

@[simp] theorem overrides_nil (functions : String → Option CursorFunction) :
    ofFields functions [] = .none := rfl

end Overrides

/-- The document of options. -/
def Options.toJson (o : Options) : Json :=
  .object [("default_limit", o.defaultLimit.toJson), ("max_limit", o.maxLimit.toJson),
    ("default_order", o.defaultOrder.toJson),
    ("pagination_types", (o.paginationTypes.map fun ts =>
      .object [("$tuple", .texts (ts.map Strategy.name))]).getD .null),
    ("default_pagination_type", .ofOption (o.defaultPaginationType.map Strategy.name)),
    ("replace_invalid_params", o.replaceInvalid.toJson), ("ordering", o.ordering.toJson),
    ("filtering", o.filtering.toJson),
    ("on_unsupported_composite_op", o.policy.toValue.toJson), ("extra_opts", o.extra.toJson),
    ("has_cursor_value_func", .bool o.cursorFunction.isSome)]

/-! ### Orderings and plans -/

/-- The document of an ordering. -/
def SortOrder.toJson (s : SortOrder) : Json :=
  .array (s.map fun t => .texts [t.field, t.direction.name])

/-- The document of a sort key. -/
def SortKey.toJson (k : SortKey) : Json :=
  .object [("ref", k.ref.toJson), ("direction", .text k.direction.name)]

/-- The sort key of a pair of a reference and a direction. -/
def SortKey.ofJson (j : Json) : Except Error SortKey :=
  match j.items with
  | [r, d] => do return ⟨.ofJson r, ← Direction.ofJson d⟩
  | _ => .error .mismatch

/-- The document of a plan. -/
def Plan.toJson (p : Plan) : Except Error Json := do
  return .object [("predicate", ← p.predicate.toJson),
    ("ordering", .array (p.ordering.map SortKey.toJson)), ("limit", p.limit.toJson),
    ("offset", p.offset.toJson), ("backward", .bool p.backward)]

/-! ### Answers -/

/-- The document of data about a result. -/
def Meta.toJson (m : Meta) : Except Error Json := do
  return .object [("request", ← m.request.toJson), ("has_next_page", m.hasNext.toJson),
    ("has_previous_page", m.hasPrevious.toJson), ("start_cursor", m.startCursor.toJson),
    ("end_cursor", m.endCursor.toJson), ("current_offset", m.currentOffset.toJson),
    ("current_page", m.currentPage.toJson), ("next_offset", m.nextOffset.toJson),
    ("next_page", m.nextPage.toJson), ("previous_offset", m.previousOffset.toJson),
    ("previous_page", m.previousPage.toJson), ("page_size", m.pageSize.toJson),
    ("total_count", m.totalCount.toJson), ("total_pages", m.totalPages.toJson),
    ("errors", m.errors.toValue.toJson), ("is_valid", .bool m.isValid)]

/-- The places of rows. -/
def Row.positions (rows : List Row) : Json := .array (rows.map fun r => .int r.position)

/-- The document of a page. -/
def Page.toJson (p : Page) : Except Error Json := do
  return .object [("items", Row.positions p.rows), ("meta", ← p.info.toJson),
    ("len", .int p.rows.length), ("iter", .int p.rows.length), ("has_next", p.info.hasNext.toJson),
    ("has_previous", p.info.hasPrevious.toJson), ("total_count", p.info.totalCount.toJson),
    ("total_pages", p.info.totalPages.toJson), ("is_valid", .bool p.info.isValid)]

/-- The document of a connection. -/
def Connection.toJson (c : Connection) : Json :=
  .object [("edges", .array (c.edges.map fun e => .array [.text e.cursor, .int e.row.position])),
    ("page_info", .object [("has_previous_page", c.info.hasPrevious.toJson),
      ("has_next_page", c.info.hasNext.toJson), ("start_cursor", c.info.startCursor.toJson),
      ("end_cursor", c.info.endCursor.toJson)])]

end Sieve
