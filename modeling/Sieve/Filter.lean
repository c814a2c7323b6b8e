import Sieve.Value.Order
import Sieve.Value.Identity
import Sieve.Operator
/-!
# Filters

A filter is a condition on a field or a group of filters. A request holds a list of them, and all
of them have to be met.

* `Condition.of?` builds a condition from given data, `Condition.ofParts` from a list of it;
* `Filter.first?` and `Filter.onField` look conditions up, `Filter.put`, `Filter.drop` and
  `Filter.dropAll` edit a list of filters. Groups are never looked into;
* `Filter.toValue` and `Filter.ofValue?` change between filters and objects.

Main statements: `onField_put_self`, `onField_drop_self`, `drop_drop_self` and `put_put`.
-/

namespace Sieve

/-- A condition on a field. -/
structure Condition where
  /-- The name of the field. -/
  field : String
  /-- The operator. -/
  op : Operator
  /-- The value that the operator takes. -/
  value : Value
  deriving Inhabited

namespace Condition

/-- A condition from given data: a field and an operator are needed, and the operator has to
exist. -/
def of? (field op value : Value) : Except Error Condition :=
  if !field.truthy || op.isNull then .error (.incompleteFilter field op)
  else
    match op with
    | .text s =>
      match Operator.ofName? s with
      | some o => .ok ⟨field.render, o, value⟩
      | none => .error (.notAMember "Operator" op)
    | _ => .error (.notAMember "Operator" op)

/-- The condition of a list of its parts; without an operator it is equality, without a value the
value is null. -/
def ofParts : List Value → Except Error Condition
  | [field] => of? field (.text Operator.eq.name) .null
  | [field, op] => of? field op .null
  | [field, op, value] => of? field op value
  | _ => .error .mismatch

/-- A condition without a value counts as absent. -/
def ignored (c : Condition) : Bool :=
  c.value.isNull

end Condition

/-- How the filters of a group are joined. -/
inductive GroupKind
  /-- All of them. -/
  | all
  /-- One of them. -/
  | any
  /-- A label without a meaning; it joins like `any`. -/
  | other (label : Value)
  deriving DecidableEq, Inhabited

namespace GroupKind

/-- The label of a kind. -/
def label : GroupKind → Value
  | all => .text "and"
  | any => .text "or"
  | other v => v

/-- The kind with a label. -/
def ofLabel (v : Value) : GroupKind :=
  if v = .text "and" then all else if v = .text "or" then any else other v

@[simp] theorem ofLabel_text_and : ofLabel (.text "and") = all := by simp [ofLabel]

@[simp] theorem ofLabel_text_or : ofLabel (.text "or") = any := by simp [ofLabel]

end GroupKind

/-- A condition or a group of filters. -/
inductive Filter
  /-- A condition. -/
  | condition (c : Condition)
  /-- A group. -/
  | group (kind : GroupKind) (children : List Filter)
  deriving Inhabited

namespace Filter

/-- Whether the filter is a condition on the field. -/
def isOn (field : String) : Filter → Bool
  | condition c => c.field == field
  | group .. => false

/-- The condition that the filter is. -/
def condition? : Filter → Option Condition
  | condition c => some c
  | group .. => none

/-- The conditions on a field, in order. -/
def onField (field : String) (fs : List Filter) : List Condition :=
  (fs.filter (isOn field)).filterMap condition?

/-- The first condition on a field. -/
def first? (field : String) (fs : List Filter) : Option Condition :=
  (onField field fs).head?

/-- The filters without the conditions on a field. -/
def drop (field : String) (fs : List Filter) : List Filter :=
  fs.filter (!isOn field ·)

/-- The filters without the conditions on any of the fields. -/
def dropAll (fields : List String) (fs : List Filter) : List Filter :=
  fs.filter fun f => !fields.any (isOn · f)

/-- The filters with a condition in place of the first one on its field, or at the end; the other
conditions on its field are dropped. -/
def put (new : Condition) : List Filter → List Filter
  | [] => [condition new]
  | f :: fs =>
    if isOn new.field f then condition new :: drop new.field fs else f :: put new fs

@[simp] theorem isOn_condition (field : String) (c : Condition) :
    isOn field (condition c) = (c.field == field) := rfl

@[simp] theorem isOn_group (field : String) (k : GroupKind) (fs : List Filter) :
    isOn field (group k fs) = false := rfl

@[simp] theorem onField_drop_self (field : String) (fs : List Filter) :
    onField field (drop field fs) = [] := by
  simp [onField, drop, List.filter_filter]

@[simp] theorem drop_drop_self (field : String) (fs : List Filter) :
    drop field (drop field fs) = drop field fs := by
  simp [drop, List.filter_filter]

/-- After an edit the condition is the only one on its field. -/
theorem onField_put_self (new : Condition) (fs : List Filter) :
    onField new.field (put new fs) = [new] := by
  induction fs with
  | nil => simp [put, onField, condition?]
  | cons f fs ih =>
    by_cases h : isOn new.field f = true
    · have : onField new.field (drop new.field fs) = [] := onField_drop_self _ _
      simp only [onField] at this
      simp [put, h, onField, condition?, this]
    · simpa [put, h, onField] using ih

/-- A second edit of a field replaces the first one. -/
theorem put_put (new old : Condition) (h : old.field = new.field) (fs : List Filter) :
    put new (put old fs) = put new fs := by
  induction fs with
  | nil => simp [put, h, drop]
  | cons f fs ih =>
    by_cases hf : isOn new.field f = true
    · simp [put, hf, h]
    · simp [put, hf, h, ih]

mutual

/-- Whether two filters are the same tree with identical or equal values. -/
def equal : Filter → Filter → Except Error Bool
  | condition a, condition b =>
    if a.field = b.field ∧ a.op = b.op then
      if a.value = b.value then .ok true else a.value.equal b.value
    else .ok false
  | group k fs, group l gs => if k = l then equalAll fs gs else .ok false
  | _, _ => .ok false

/-- Whether two lists of filters are equal item by item. -/
def equalAll : List Filter → List Filter → Except Error Bool
  | [], gs => .ok gs.isEmpty
  | _ :: _, [] => .ok false
  | f :: fs, g :: gs => do if ← equal f g then equalAll fs gs else .ok false

end

/-- The filters with a filter in place of the first condition on its field, or at the end. A group
has no field, so it can only go to the end of filters without conditions. -/
def place (new : Filter) (fs : List Filter) : Except Error (List Filter) :=
  match new with
  | condition c => .ok (put c fs)
  | group .. =>
    if fs.all fun f => f.condition?.isNone then .ok (fs ++ [new]) else .error .missingAttribute

/-! ### Filters as objects -/

/-- The kind of the objects that conditions are. -/
def conditionKind : String := "Filter"

/-- The kind of the objects that groups are. -/
def groupKind : String := "Combinator"

/-- A condition as an object. -/
def conditionValue (c : Condition) : Value :=
  .object conditionKind [("field", .text c.field), ("op", .text c.op.name), ("value", c.value)]

/-- A group of objects as an object. -/
def groupValue (label : Value) (children : List Value) : Value :=
  .object groupKind [("type", label), ("filters", .tuple children)]

mutual

/-- The filter as an object with its parts as attributes. -/
def toValue : Filter → Value
  | condition c => conditionValue c
  | group k fs => groupValue k.label (toValues fs)

/-- The filters as objects. -/
def toValues : List Filter → List Value
  | [] => []
  | f :: fs => toValue f :: toValues fs

end

mutual

/-- The filter that an object is. -/
def ofValue? : Value → Option Filter
  | .object "Filter" [("field", .text field), ("op", .text op), ("value", v)] => do
    return condition ⟨field, ← Operator.ofName? op, v⟩
  | .object "Combinator" [("type", label), ("filters", .tuple children)] => do
    return group (.ofLabel label) (← ofValues? children)
  | _ => none

/-- The filters that objects are. -/
def ofValues? : List Value → Option (List Filter)
  | [] => some []
  | v :: vs => do
    let f ← ofValue? v
    let fs ← ofValues? vs
    return f :: fs

end

theorem ofValue?_conditionValue (c : Condition) : ofValue? (conditionValue c) = some (condition c) := by
  simp [conditionValue, conditionKind, ofValue?]

end Filter

end Sieve
