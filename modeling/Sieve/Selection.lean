import Sieve.Schema
import Sieve.Value.Items
import Sieve.Like
import Sieve.Event
/-!
# Selecting rows by filters

The predicate that an operator makes of a field and a value, and the predicate of a list of
filters.

* `Operator.onRef` is the predicate on a field that is found in a row;
* `Field.select` also expands a composite into its members: a search has to be met by some member,
  emptiness by all of them;
* `Filter.select` and `selectAll` compile filters; a condition without a value selects all rows.

Main statements: `selectAll_nil`, `select_ignored`, `emptyPredicate_eq`.
-/

namespace Sieve

/-- What to do with an operator that a composite cannot express. -/
inductive CompositePolicy
  /-- Report it and select all rows. -/
  | warn
  /-- Fail. -/
  | refuse
  /-- A policy without a meaning; it works like `warn`. -/
  | other (v : Value)
  deriving DecidableEq, Inhabited

namespace CompositePolicy

/-- The policy as data. -/
def toValue : CompositePolicy → Value
  | warn => .text "warn_and_ignore"
  | refuse => .text "error"
  | other v => v

/-- The policy that data names. -/
def ofValue (v : Value) : CompositePolicy :=
  if v = .text "warn_and_ignore" then warn else if v = .text "error" then refuse else other v

end CompositePolicy

namespace Operator

/-- The predicate that a field holds a term. -/
def termPredicate (ref : FieldRef) (caseSensitive : Bool) (term : String) : Predicate :=
  .like ref (String.ofList (Like.substring [Like.escapeChar] term.toList)) caseSensitive

/-- The terms of a search that are used as given. -/
def givenTerms (v : Value) : Except Error (List String) :=
  ((v.sequence?).getD [v]).mapM Value.written

/-- The predicate that a field holds one of the terms. -/
def someTerm (ref : FieldRef) (caseSensitive : Bool) (v : Value) : Except Error Predicate := do
  return .disjunction ((← givenTerms v).map (termPredicate ref caseSensitive))

/-- The predicate that all fragments hold; without fragments it always holds. -/
def allFragments : List Predicate → Predicate
  | [] => .const true
  | ps => .conjunction ps

/-- The predicate that some fragment holds; without fragments it never holds. -/
def someFragment : List Predicate → Predicate
  | [] => .const false
  | ps => .disjunction ps

/-- The predicate that a field is empty: null, or for collections and maps also without items. -/
def emptyPredicate (ref : FieldRef) : StorageType → Predicate
  | .array => .any [.isNull ref, .compare ref .eq (.list [])]
  | .map => .any [.isNull ref, .compare ref .eq (.map [])]
  | _ => .isNull ref

theorem emptyPredicate_eq (ref : FieldRef) {t : StorageType} (ha : t ≠ .array) (hm : t ≠ .map) :
    emptyPredicate ref t = .isNull ref := by
  cases t <;> simp_all [emptyPredicate]

/-- The predicate that a field is empty or not, as a flag asks; without a flag it always holds. -/
def emptiness (ref : FieldRef) (t : StorageType) (negated : Bool) (v : Value) : Predicate :=
  match v.emptyFlag? with
  | none => .const true
  | some flag => if flag != negated then emptyPredicate ref t else .not (emptyPredicate ref t)

/-- The predicate that a field equals none of the values. A null among them excludes rows where the
field is null. -/
def noneOf (ref : FieldRef) (vs : List Value) : Predicate :=
  let p := Predicate.not (.isIn ref (vs.filter (!·.isNull)))
  if vs.any Value.isNull then p.and (.not (.isNull ref)) else p

/-- The predicate that an operator makes of a field and a value. -/
def onRef (op : Operator) (ref : FieldRef) (t : StorageType) (v : Value) :
    Except Error Predicate :=
  match op with
  | eq => .ok (.compare ref .eq v)
  | ne => .ok (.compare ref .ne v)
  | lt => .ok (.compare ref .lt v)
  | le => .ok (.compare ref .le v)
  | gt => .ok (.compare ref .gt v)
  | ge => .ok (.compare ref .ge v)
  | isIn => do .ok (.isIn ref (← v.items))
  | notIn => do .ok (noneOf ref (← v.items))
  | contains => .ok (.contains ref v)
  | notContains => .ok (.not (.contains ref v))
  | like => someTerm ref true v
  | notLike => do return .not (← someTerm ref true v)
  | ilike | search => someTerm ref false v
  | notIlike => do return .not (← someTerm ref false v)
  | likeAnd => do .ok (allFragments ((← v.searchTerms).map (termPredicate ref true)))
  | likeOr => do .ok (someFragment ((← v.searchTerms).map (termPredicate ref true)))
  | ilikeAnd => do .ok (allFragments ((← v.searchTerms).map (termPredicate ref false)))
  | ilikeOr => do .ok (someFragment ((← v.searchTerms).map (termPredicate ref false)))
  | empty => .ok (emptiness ref t false v)
  | notEmpty => .ok (emptiness ref t true v)

/-- The operator that looks for one word where the operator looks for the words of a text. -/
def single : Operator → Operator
  | likeAnd | likeOr => like
  | ilikeAnd | ilikeOr => ilike
  | op => op

/-- Whether every word has to be found. -/
def needsAll : Operator → Bool
  | likeAnd | ilikeAnd => true
  | _ => false

/-- Whether a composite cannot express the operator. -/
def refusesComposite (op : Operator) : Bool :=
  op.isComparison || op.isEquality || op.isMembership

end Operator

namespace Field

/-- The predicate that an operator makes of a field and a value, with composites expanded at most
`depth` levels deep. -/
def selectWithin (schema : Option Schema) (policy : CompositePolicy) (op : Operator) (v : Value)
    (field : Field) : Nat → Traced Predicate
  | 0 => .fail .endless
  | depth + 1 =>
    match field with
    | .custom name .. => .fail (.customOperator name)
    | .composite name members =>
      if op.refusesComposite then
        if policy = .refuse then .fail (.compositeOperator name op)
        else do
          Traced.log (.compositeOperatorIgnored name op)
          return .const true
      else do
        let fields ← members.mapM fun n => Traced.lift (resolveField schema n)
        if op.isMultiTerm then
          let perTerm ← (← Traced.lift v.searchTerms).mapM fun term => do
            return .disjunction
              (← fields.mapM fun f => selectWithin schema .warn op.single (.text term) f depth)
          return if op.needsAll then Operator.allFragments perTerm
            else Operator.someFragment perTerm
        else do
          let fragments ← fields.mapM fun f => selectWithin schema .warn op v f depth
          return if op = .empty then .conjunction fragments else .disjunction fragments
    | f => do
      let ref ← Traced.lift f.ref
      Traced.lift (op.onRef ref f.type v)

/-- How many levels of composites there can be: every level is another field. -/
def levels (schema : Option Schema) : Nat :=
  ((schema.map (·.fields.length)).getD 0) + 2

/-- The predicate that an operator makes of a field and a value. Composites that hold themselves
cannot be expanded. -/
def select (schema : Option Schema) (policy : CompositePolicy) (op : Operator) (v : Value)
    (field : Field) : Traced Predicate :=
  selectWithin schema policy op v field (levels schema)

end Field

/-- The options of a custom field: those of the call, overlaid by those of its declaration. -/
def overlay (below above : FilterOptions) : Except Error FilterOptions :=
  above.foldlM (fun es e => put es e.1 e.2) below
where
  /-- The entries with the value of a key replaced, or with the key added at the end. -/
  put : FilterOptions → Value → Value → Except Error FilterOptions
    | [], k, v => .ok [(k, v)]
    | (l, w) :: r, k, v => do
      if ← l.equal k then .ok ((l, v) :: r) else .ok ((l, w) :: (← put r k v))

namespace Filter

/-- What filters are compiled with. -/
structure Setting where
  /-- The schema that names are looked up in. -/
  schema : Option Schema
  /-- What to do with an operator that a composite cannot express. -/
  policy : CompositePolicy
  /-- The options that filter functions are called with. -/
  extra : FilterOptions

/-- The predicate of a condition. -/
def selectCondition (s : Setting) (c : Condition) : Traced Predicate :=
  if c.ignored then .ok (.const true)
  else do
    let field ← Traced.lift (resolveField s.schema c.field)
    match field with
    | .custom _ f options _ _ => do
      let options ← Traced.lift (overlay s.extra options)
      Traced.lift (f c options)
    | field => field.select s.schema s.policy c.op c.value

mutual

/-- The predicate of a filter. -/
def select (s : Setting) : Filter → Traced Predicate
  | condition c => selectCondition s c
  | group k fs => do
    let ps ← selectEach s fs
    return if k = .all then .all ps else .any ps

/-- The predicates of filters, in order. -/
def selectEach (s : Setting) : List Filter → Traced (List Predicate)
  | [] => .ok []
  | f :: fs => do
    let p ← select s f
    let ps ← selectEach s fs
    return p :: ps

end

/-- The predicate that all filters are met. -/
def selectAll (s : Setting) (fs : List Filter) : Traced Predicate := do
  return .all (← selectEach s fs)

@[simp] theorem selectAll_nil (s : Setting) : selectAll s [] = ⟨[], .ok (.all [])⟩ := by
  simp [selectAll, selectEach, Traced.ok]

/-- A condition without a value selects all rows. -/
@[simp] theorem select_ignored (s : Setting) {c : Condition} (h : c.ignored = true) :
    select s (condition c) = ⟨[], .ok (.const true)⟩ := by
  simp [select, selectCondition, h, Traced.ok]

end Filter

end Sieve
