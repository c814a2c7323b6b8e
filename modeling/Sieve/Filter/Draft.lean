import Sieve.Filter
import Sieve.Value.Arithmetic
/-!
# Filters as given

A draft is a filter as it stands in parameters that nobody has checked yet: a map with the entries
`field`, `op` and `value`, a map with the entries `type` and `filters`, or a filter itself. Lists may
also be given as maps from index numbers, which are taken in the order of the numbers.

* `Draft` is the tree, `Value.draft` and `Value.drafts` find it in data;
* `Value.inOrder` puts the entries of a map from index numbers in order.

Main statements: `draft_condition`, `drafts_list`.
-/

namespace Sieve

/-- A filter as given. -/
inductive Draft
  /-- Data that is no filter. -/
  | unreadable
  /-- A condition; what is missing is null. -/
  | condition (field op value : Value)
  /-- A group. -/
  | group (type : Value) (children : List Draft)
  /-- A group whose filters are numbered beyond all integers. -/
  | unbounded (type : Value)
  deriving Inhabited

/-- The filter of a map, given its entries and the children among them, if there is an entry for
children. Data that is no list has no children. -/
def Draft.ofParts (get : String → Value) : Option (Except Error (List Draft)) → Draft
  | none => .condition (get "field") (get "op") (get "value")
  | some (.ok children) => .group (get "type") children
  | some (.error .overflow) => .unbounded (get "type")
  | some (.error _) => .group (get "type") []

namespace Value

/-- The entries of a map from index numbers, in the order of the numbers. -/
def inOrder {α : Type} (entries : List (Value × α)) : Except Error (List α) := do
  let numbered ← entries.mapM fun e => do return (← wholePart e.1, e.2)
  return (numbered.mergeSort (·.1 ≤ ·.1)).map (·.2)

/-- The attribute of an object with a name; null if there is none. -/
def attributeOf (attributes : List (String × Value)) (name : String) : Value :=
  (attributes.lookup name).getD null

mutual

/-- The filter that a value is given as. -/
def draft : Value → Draft
  | map es => .ofParts (fun name => (lookup? name es).getD null) (childDrafts? es)
  | object kind as =>
    if kind = Filter.conditionKind ∨ kind = Filter.groupKind then
      .ofParts (attributeOf as) (attributeDrafts? as)
    else .unreadable
  | _ => .unreadable

/-- The children of a group, if there is an entry for them. -/
def childDrafts? : List (Value × Value) → Option (Except Error (List Draft))
  | [] => none
  | (text k, v) :: r => if k = "filters" then some (drafts v) else childDrafts? r
  | _ :: r => childDrafts? r

/-- The children of a group, if there is an attribute for them. -/
def attributeDrafts? : List (String × Value) → Option (Except Error (List Draft))
  | [] => none
  | (k, v) :: r => if k = "filters" then some (drafts v) else attributeDrafts? r

/-- The filters that a list is given as. -/
def drafts : Value → Except Error (List Draft)
  | list xs => .ok (draftItems xs)
  | tuple xs => .ok (draftItems xs)
  | map es => inOrder (draftEntries es)
  | _ => .error .notAList

/-- The filters that the items are given as. -/
def draftItems : List Value → List Draft
  | [] => []
  | x :: r => draft x :: draftItems r

/-- The filters that the values of the entries are given as. -/
def draftEntries : List (Value × Value) → List (Value × Draft)
  | [] => []
  | (k, v) :: r => (k, draft v) :: draftEntries r

end

@[simp] theorem draftItems_eq_map (xs : List Value) : draftItems xs = xs.map draft := by
  induction xs with
  | nil => rfl
  | cons x r ih => simp [draftItems, ih]

@[simp] theorem drafts_list (xs : List Value) : drafts (list xs) = .ok (xs.map draft) := by
  simp [drafts]

/-- A condition is found as it was written. -/
theorem draft_condition (c : Condition) :
    draft (Filter.condition c).toValue = .condition (.text c.field) (.text c.op.name) c.value := by
  simp [Filter.toValue, Filter.conditionValue, Filter.conditionKind, draft, attributeDrafts?,
    Draft.ofParts, attributeOf, List.lookup_cons]

end Value

end Sieve
