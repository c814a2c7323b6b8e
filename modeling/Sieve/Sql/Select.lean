import Sieve.Plan.Basic
import Sieve.Value.Arithmetic
import Sieve.Sql.Condition
/-!
# Statements of SQL

A base statement selects columns of an entity, joins other tables to it and names expressions. Plans
and counts become statements on it.

* `Entity`, `Join` and `Base` describe the base statement;
* `Base.term` is what a field reference reads, `Base.condition` what a predicate says;
* `Base.statement` and `Base.countStatement` are the whole statements.

Main statements: `term_alias`, `condition_const`.
-/

namespace Sieve.Sql

/-- A table under the name that its columns are qualified with. -/
structure Entity where
  /-- The name. -/
  name : String
  /-- The columns. -/
  columns : List String

/-- A table that is joined to the entity of a statement. -/
structure Join where
  /-- The table. -/
  table : String
  /-- The joined table under its binding. -/
  entity : Entity
  /-- The column of the joined table that rows are joined on. -/
  key : String
  /-- The column of the statement's entity that holds the key. -/
  foreignKey : String

/-- A base statement. -/
structure Base where
  /-- The entity. -/
  entity : Entity
  /-- The columns that are selected. -/
  selected : List String
  /-- The joined tables. -/
  joins : List Join
  /-- The expressions that are selected under a name. -/
  aliases : List (String × Term)

namespace Base

/-! ### Conditions -/

/-- A column of an entity. -/
def column (e : Entity) (name : String) : Except Error Term :=
  if name ∈ e.columns then .ok (.column e.name name) else .error .missingAttribute

/-- What a field reference reads. -/
def term (b : Base) (r : FieldRef) : Except Error Term :=
  if r.isAlias then
    ((b.aliases.lookup r.name).map .ok).getD (.error (.unknownAlias r.name))
  else
    match r.binding with
    | none => column b.entity r.column
    | some binding =>
      match b.joins.find? (·.entity.name == binding) with
      | some j => column j.entity r.column
      | none => .error (.unknownBinding binding r.name)

theorem term_alias (b : Base) (r : FieldRef) (t : Term) (h : r.isAlias = true)
    (ht : b.aliases.lookup r.name = some t) : b.term r = .ok t := by
  simp [term, h, ht]

/-- A comparison of a term; constants are only equal or unequal. -/
def compare (t : Term) (c : Comparison) (v : Value) : Except Error Condition :=
  match c, v with
  | .eq, .null => .ok (.test (.null t true))
  | .ne, .null => .ok (.test (.null t false))
  | .eq, .bool b => .ok (.test (.flag t true b))
  | .ne, .bool b => .ok (.test (.flag t false b))
  | _, .null | _, .bool _ => .error .unorderedConstant
  | c, v => .ok (.test (.compare t c v))

mutual

/-- What a predicate says about the rows of the statement. -/
def condition (b : Base) : Predicate → Except Error Condition
  | .const c => .ok (.const c)
  | .oddConst v => .ok (.const v.truthy)
  | .all ps => do return .both (← conditions b ps)
  | .any ps => do return .either (← conditions b ps)
  | .not p => do return (← condition b p).negate
  | .compare r c v => do compare (← b.term r) c v
  | .oddCompare r sign _ => do
    let _ ← b.term r
    throw (.unknownComparison sign.render)
  | .isIn r vs => do return .test (.member (← b.term r) true vs)
  | .isNull r => do return .test (.null (← b.term r) true)
  | .like r p c => do return .test (.like (← b.term r) true p c)
  | .oddLike r p c => do
    let t ← b.term r
    match p with
    | .text p => return .test (.like t true p c.truthy)
    | _ => throw .mismatch
  | .contains r v => do return .test (.holds (← b.term r) true v)
  | .bare => .error (.unsupportedNode "Predicate")
  | .foreign name _ => .error (.unsupportedNode name)

/-- What each of some predicates says. -/
def conditions (b : Base) : List Predicate → Except Error (List Condition)
  | [] => .ok []
  | p :: ps => do
    let c ← condition b p
    return c :: (← conditions b ps)

end

@[simp] theorem condition_const (b : Base) (c : Bool) :
    b.condition (.const c) = .ok (.const c) := rfl

/-! ### Clauses -/

/-- The tables that rows come from. -/
def source (b : Base) : String :=
  b.joins.foldl
    (fun s j => s ++ " LEFT OUTER JOIN " ++ j.table ++ " AS " ++ j.entity.name ++ " ON " ++
      (Term.column j.entity.name j.key).text ++ " = " ++
      (Term.column b.entity.name j.foreignKey).text)
    b.entity.name

/-- The rows that a predicate selects, as the end of a statement. -/
def restricted (b : Base) (p : Predicate) : Except Error Fragment := do
  return .plain (" FROM " ++ b.source ++ " WHERE ") ++ (← b.condition p).asTest.render

/-- The words for a direction. -/
def directionText (d : Direction) : String :=
  (if d.ascending then " ASC" else " DESC") ++
    match d.nulls with
    | some .first => " NULLS FIRST"
    | some .last => " NULLS LAST"
    | none => ""

/-- A sort key; an alias is ordered on by its name. -/
def sortText (b : Base) (k : SortKey) : Except Error String := do
  let t ← b.term k.ref
  return (if k.ref.isAlias then k.ref.name else t.text) ++ directionText k.direction

/-- The order of the rows. -/
def orderText (b : Base) (keys : List SortKey) : Except Error String := do
  if keys.isEmpty then return ""
  return " ORDER BY " ++ ", ".intercalate (← keys.mapM b.sortText)

/-- A clause with a number of rows. -/
def countClause (words : String) (n : Value) : Except Error Fragment := do
  return .plain words ++ .bind (.int (← n.wholePart))

/-- The clause of a limit. An offset without a limit needs one that says nothing. -/
def limitFragment (limit offset : Value) : Except Error Fragment :=
  if !limit.isNull then countClause " LIMIT " limit
  else if offset.truthy then .ok (.plain " LIMIT -1")
  else .ok .empty

/-- The part of the rows; an offset of zero says nothing. -/
def windowFragment (limit offset : Value) : Except Error Fragment := do
  let skipped ← if offset.truthy then countClause " OFFSET " offset else pure .empty
  return (← limitFragment limit offset) ++ skipped

/-! ### Statements -/

/-- The columns and aliases that a statement selects. -/
def selection (b : Base) : String :=
  ", ".intercalate (b.selected.map (fun c => (Term.column b.entity.name c).text) ++
    b.aliases.map fun a => a.2.text ++ " AS " ++ a.1)

/-- The statement that fetches the rows of a plan. -/
def statement (b : Base) (p : Plan) : Except Error Fragment := do
  let rows ← b.restricted p.predicate
  let order ← b.orderText p.ordering
  return .plain ("SELECT " ++ b.selection) ++ rows ++ .plain order ++
    (← windowFragment p.limit p.offset)

/-- The statement that counts the rows that a predicate selects. -/
def countStatement (b : Base) (p : Predicate) : Except Error Fragment := do
  let columns := b.selected.map fun c => (Term.column b.entity.name c).text ++ " AS " ++ c
  return .plain ("SELECT count(*) AS count_1 FROM (SELECT " ++ ", ".intercalate columns) ++
    (← b.restricted p) ++ .plain ") AS anon_1"

end Base

end Sieve.Sql
