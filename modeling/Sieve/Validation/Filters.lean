import Sieve.Validation.Checking
import Sieve.Options
import Sieve.Filter.Draft
import Sieve.Coercion
/-!
# Checking filters

A condition needs a field that the schema admits for filters, an operator that the field has, and a
value that fits both. A group needs a known type, and two filters or one group in it.

* `Validation.filters` checks the filters of a request. Every complaint is made under the path of
  the filter; invalid filters are dropped where options say so. A field whose text cannot be written
  is not complained about: the check fails.

Main statements: `filters_null`, `named_eq_ok_iff`, `groupKind?_eq_some`.
-/

namespace Sieve

namespace Validation

/-- Messages about a rejected filter: they are reported and the filter is dropped, or they are
added to the others. -/
def reject (o : Options) (path : String) (messages : Messages) : Checking (Option Filter) :=
  if o.replaces then do
    Checking.report (.filterDropped path messages)
    return none
  else do
    Checking.complainAll messages
    return none

/-- The text of a field is written before anything is checked, unless the field counts as missing. -/
def named (field : Value) : Except Error Unit :=
  if field.truthy && !field.isWritable then .error .malformed else .ok ()

@[simp] theorem named_text (s : String) : named (.text s) = .ok () := by
  simp [named]

theorem named_eq_ok_iff {field : Value} :
    named field = .ok () ↔ (field.truthy = true → field.isWritable = true) := by
  unfold named
  cases field.truthy <;> cases field.isWritable <;> simp

/-- The field of a condition, or a complaint. -/
def conditionField (schema : Option Schema) (path : String) (field : Value) :
    Except Messages Field :=
  if !field.truthy then .error [(path ++ ".field", ["can't be blank"])]
  else
    let name := field.render
    if schema.any fun s => field.isBroken || !s.isFilterable name then .error [(path ++ ".field", ["is invalid"])]
    else
      match resolveField schema name with
      | .ok f => .ok f
      | .error _ => .error [(path ++ ".field", ["is invalid"])]

/-- The operator of a condition, or a complaint; without one it is equality. -/
def conditionOperator (path : String) (op : Value) : Except Messages Operator :=
  match op with
  | .null => .ok .eq
  | .text s =>
    match Operator.ofName? s with
    | some op => .ok op
    | none => .error [(path ++ ".op", ["is invalid"])]
  | _ => .error [(path ++ ".op", ["is invalid"])]

/-- The value of a condition on a field with an operator, or a complaint. -/
def conditionValue (path : String) (f : Field) (op : Operator) (v : Value) :
    Except Messages Value :=
  if f.operators.contains op then
    match op.coerce f.type v with
    | .ok v => .ok v
    | .error _ => .error [(path ++ ".value", ["is invalid"])]
  else .error [(path ++ ".op", ["is invalid"])]

/-- The condition of a field, an operator and a value, or all the complaints. -/
def condition (schema : Option Schema) (path : String) (field op value : Value) :
    Except Messages Condition :=
  match conditionField schema path field, conditionOperator path op with
  | .ok f, .ok op => do return ⟨field.render, op, ← conditionValue path f op value⟩
  | .error m, .error n => .error (m ++ n)
  | .error m, .ok _ => .error m
  | .ok _, .error m => .error m

/-- The kind of a group; without a type it is `and`. -/
def groupKind? (type : Value) : Option GroupKind :=
  if !type.truthy then some .all
  else if type = .text "and" then some .all
  else if type = .text "or" then some .any
  else none

theorem groupKind?_eq_some {type : Value} {k : GroupKind} (h : groupKind? type = some k) :
    k = .all ∨ k = .any := by
  unfold groupKind? at h
  split at h
  · simp_all
  · split at h
    · simp_all
    · split at h <;> simp_all

/-- Whether filters are enough for a group: two, or one that is a group. -/
def enough (fs : List Filter) : Bool :=
  2 ≤ fs.length || fs.any fun f => f.condition?.isNone

/-- The words for a group with too few filters. -/
def tooFew : String := "must have at least two filters or one combinator"

mutual

/-- Checks a filter. -/
def filter (schema : Option Schema) (o : Options) (path : String) :
    Draft → Checking (Option Filter)
  | .unreadable => do
    Checking.complain path "is invalid"
    return none
  | .condition field op value => do
    Checking.lift (named field)
    match condition schema path field op value with
    | .ok c => return some (.condition c)
    | .error messages => reject o path messages
  | .group type children =>
    match groupKind? type with
    | none => reject o path [(path ++ ".type", ["is invalid"])]
    | some kind => do
      let fs ← filterEach schema o (path ++ ".filters") 0 children
      if enough fs then return some (.group kind fs)
      else reject o path [(path ++ ".filters", [tooFew])]
  | .unbounded type =>
    match groupKind? type with
    | none => reject o path [(path ++ ".type", ["is invalid"])]
    | some _ => Checking.fail .overflow

/-- Checks filters that stand in a list, from the given place on, and keeps the valid ones. -/
def filterEach (schema : Option Schema) (o : Options) (path : String) (place : Nat) :
    List Draft → Checking (List Filter)
  | [] => return []
  | d :: ds => do
    let f ← filter schema o (Intake.itemPath path place) d
    let fs ← filterEach schema o path (place + 1) ds
    return f.toList ++ fs

end

/-- Checks the filters of a request. -/
def filters (schema : Option Schema) (o : Options) (v : Value) : Checking (List Filter) :=
  if v.isNull then return []
  else
    match v.drafts with
    | .ok ds => filterEach schema o "filters" 0 ds
    | .error .overflow => Checking.fail .overflow
    | .error _ => do
      if o.replaces then Checking.report (.paramDropped "filters" "not a list")
      else Checking.complain "filters" "is invalid"
      return []

@[simp] theorem filters_null (schema : Option Schema) (o : Options) :
    filters schema o .null = pure [] := rfl

end Validation

end Sieve
