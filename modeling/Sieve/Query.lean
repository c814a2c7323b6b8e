import Sieve.Page
import Sieve.Plan.Compile
import Sieve.Validation
/-!
# Queries

A request is answered from a source of rows: its plan is fetched, the row that was asked for beyond
the page is dropped, and the result is described.

* `Source` is what rows are fetched from, `Source.memory` a collection in memory,
  `Query.inMemory` a query on one;
* `Query.rows`, `Query.count`, `Query.info` and `Query.run` answer a request in whole or in part;
* `Query.validateAndRun` takes parameters instead, and answers invalid ones with an empty page that
  says what is wrong.

Main statement: `pageRows_offset`.
-/

namespace Sieve

/-- What rows are fetched from. -/
structure Source where
  /-- The rows that a plan asks for. -/
  fetch : Plan → Except Error (List Row)
  /-- The number of rows that a predicate selects. -/
  count : Predicate → Except Error Nat

/-- A collection in memory as a source. -/
def Source.memory (aliases : Aliases) (rows : List Row) : Source :=
  ⟨Sieve.fetch aliases rows, Sieve.count aliases rows⟩

/-- What a query is answered with. -/
structure Query where
  /-- The source of the rows. -/
  source : Source
  /-- The schema. -/
  schema : Option Schema
  /-- The options in force. -/
  options : Options

namespace Query

/-- A query on a collection in memory. -/
def inMemory (aliases : Aliases) (rows : List Row) (schema : Option Schema) (o : Options) : Query :=
  ⟨.memory aliases rows, schema, o⟩

/-- The rows of the page among those that were fetched, in the requested order. -/
def pageRows (r : Request) (fetched : List Row) : Except Error (List Row) :=
  if r.byCursor then do
    let rows := slice fetched 0 (← r.size.position?)
    return if r.isBackward then rows.reverse else rows
  else .ok fetched

theorem pageRows_offset {r : Request} (h : r.byCursor = false) (fetched : List Row) :
    pageRows r fetched = .ok fetched := by
  simp [pageRows, h]

/-- The rows of the page and the number of rows fetched. -/
def fetchPage (q : Query) (r : Request) : Traced (List Row × Nat) := do
  let plan ← r.plan q.schema q.options
  let fetched ← Traced.lift (q.source.fetch plan)
  return (← Traced.lift (pageRows r fetched), fetched.length)

/-- The rows of the page. -/
def rows (q : Query) (r : Request) : Traced (List Row) := do
  return (← q.fetchPage r).1

/-- The number of rows that meet the filters. -/
def count (q : Query) (r : Request) : Traced Nat := do
  Traced.lift (q.source.count (← r.predicate q.schema q.options))

/-- Whether there are rows on the other side of the cursor. -/
def beyond (q : Query) (r : Request) : Traced Bool := do
  match ← r.lookback q.schema q.options with
  | none => return false
  | some plan => return !(← Traced.lift (q.source.fetch plan)).isEmpty

/-- What is found out about the answer to a request for a cursor. -/
def cursorFindings (q : Query) (r : Request) (rows : List Row) (fetched : Nat) :
    Traced Meta.Findings := do
  let ends ← Traced.lift
    (Cursor.ends q.schema q.options.cursorFunction r.orderNames (rows.map (·.data)))
  let token (choose : String × String → String) : Value :=
    (ends.map fun e => .text (choose e)).getD .null
  return ⟨.null, .int fetched, token (·.1), token (·.2), .bool (← q.beyond r)⟩

/-- What is found out about the answer to another request. -/
def countFindings (q : Query) (r : Request) : Traced Meta.Findings := do
  return ⟨.int (← q.count r), .int 0, .null, .null, .bool false⟩

/-- The page of a request. -/
def run (q : Query) (r : Request) : Traced Page := do
  let (rows, fetched) ← q.fetchPage r
  let findings ← if r.byCursor then q.cursorFindings r rows fetched else q.countFindings r
  let info ← Traced.lift (Meta.of r findings)
  Traced.log (.queryExecuted (q.schema.map (·.name)) rows.length info.totalCount)
  return ⟨rows, info⟩

/-- The data about the answer; rows are fetched only for cursors. -/
def info (q : Query) (r : Request) : Traced Meta := do
  if r.byCursor then return (← q.run r).info
  else Traced.lift (Meta.of r (← q.countFindings r))

/-- The page of some parameters, which have to be valid. -/
def validateAndRunStrictly (q : Query) (params : Params) : Traced Page := do
  q.run (← params.validateWith q.schema q.options)

/-- The page of some parameters. Invalid parameters have an empty page that says what is wrong. -/
def validateAndRun (q : Query) (params : Params) : Traced Page :=
  let checked := params.validateWith q.schema q.options
  match checked.outcome with
  | .ok r => ⟨checked.events, .ok r⟩ >>= q.run
  | .error e =>
    match e.messages? with
    | some messages => ⟨checked.events ++ [.paramsRejected messages], .ok ⟨[], .invalid messages⟩⟩
    | none => ⟨checked.events, .error e⟩

end Query

end Sieve
