import Sieve.Request
import Sieve.Intake
/-!
# Parameters

The parameters of a query as they come from outside: a map from names to data, or a request that is
to be checked again.

* `Params.toEntries` are the names and data;
* `Scalars` are the parameters other than filters, `Scalars.read` reads each one by itself and
  collects the complaints.

Main statement: `read_nil`.
-/

namespace Sieve

/-- Parameters as given. -/
inductive Params
  /-- A map from names to data. -/
  | entries (es : List (Value × Value))
  /-- A request. -/
  | request (r : Request)
  /-- Data that cannot be parameters. -/
  | other (v : Value)
  deriving Inhabited

/-- The parameters other than filters. -/
structure Scalars where
  /-- The names of the fields to order by. -/
  orderBy : Option (List String)
  /-- The directions of these fields. -/
  directions : Option (List Direction)
  /-- The part of the result. -/
  pagination : Pagination
  deriving Inhabited

namespace Params

/-- The parameters of pagination as data. -/
def ofPagination (p : Pagination) : List (String × Value) :=
  [("limit", p.limit), ("offset", p.offset), ("page", p.page), ("page_size", p.pageSize),
    ("first", p.first), ("after", p.after), ("last", p.last), ("before", p.before)]

/-- Scalar parameters as data. -/
def ofScalars (s : Scalars) : List (String × Value) :=
  [("order_by", (s.orderBy.map fun ns => .tuple (ns.map .text)).getD .null),
    ("order_directions",
      (s.directions.map fun ds => .tuple (ds.map fun d => .text d.name)).getD .null)] ++
  ofPagination s.pagination

/-- The names and data of the parameters. -/
def toEntries : Params → Except Error (List (Value × Value))
  | entries es => .ok es
  | request r =>
    .ok ((("filters", Value.list (Filter.toValues r.filters)) ::
      ofScalars ⟨r.orderBy, r.directions, r.pagination⟩).map fun e => (.text e.1, e.2))
  | other v => .error (.notParameters v)

end Params

namespace Scalars

/-- No parameter at all. -/
def empty : Scalars := ⟨none, none, .empty⟩

/-- A parameter that was read, and the complaints about it. -/
structure Reading (α : Type) where
  /-- The parameter, if it is given and valid. -/
  value : Option α
  /-- The complaints. -/
  complaints : List Detail

/-- Reads a parameter; null counts as not given. -/
def parameter {α : Type} (entries : List (Value × Value)) (name : String)
    (read : String → Value → Intake.Outcome α) : Reading α :=
  match Value.lookup? name entries with
  | none | some .null => ⟨none, []⟩
  | some v =>
    match read name v with
    | .ok a => ⟨some a, []⟩
    | .error ds => ⟨none, ds⟩

/-- The direction that a value names. -/
def direction (path : String) (v : Value) : Intake.Outcome Direction :=
  match (Intake.text path v).toOption.bind Direction.ofName? with
  | some d => .ok d
  | none =>
    Intake.complain path "enum"
      ("Input should be " ++ Intake.alternatives (Direction.all.map Direction.name))

/-- Reads a list parameter; a single text stands for a list of it. -/
def listOf {α : Type} (item : String → Value → Intake.Outcome α) (path : String) (v : Value) :
    Intake.Outcome (List α) :=
  Intake.list path item (Intake.single v)

/-- A number that was read; without one it is null. -/
def Reading.number (r : Reading Value) : Value := r.value.getD .null

/-- A text that was read; without one it is null. -/
def Reading.text (r : Reading String) : Value := (r.value.map .text).getD .null

/-- The scalar parameters among some entries, and the complaints about invalid ones. -/
def read (entries : List (Value × Value)) : Scalars × List Detail :=
  let orderBy := parameter entries "order_by" (listOf Intake.text)
  let directions := parameter entries "order_directions" (listOf direction)
  let limit := parameter entries "limit" Intake.integer
  let offset := parameter entries "offset" Intake.integer
  let page := parameter entries "page" Intake.integer
  let pageSize := parameter entries "page_size" Intake.integer
  let first := parameter entries "first" Intake.integer
  let after := parameter entries "after" Intake.text
  let last := parameter entries "last" Intake.integer
  let before := parameter entries "before" Intake.text
  (⟨orderBy.value, directions.value,
      ⟨limit.number, offset.number, page.number, pageSize.number, first.number, after.text,
        last.number, before.text⟩⟩,
    orderBy.complaints ++ directions.complaints ++ limit.complaints ++ offset.complaints ++
      page.complaints ++ pageSize.complaints ++ first.complaints ++ after.complaints ++
      last.complaints ++ before.complaints)

@[simp] theorem read_nil : read [] = (empty, []) := rfl

/-- The scalar parameters among some entries, all of which have to be valid. -/
def readStrictly (entries : List (Value × Value)) : Except Error Scalars :=
  match read entries with
  | (s, []) => .ok s
  | (_, ds) => .error (.invalidModel ds)

end Scalars

end Sieve
