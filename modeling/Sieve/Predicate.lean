import Sieve.Value.Order
import Sieve.Value.Identity
/-!
# Predicates on rows

A compiled filter or cursor bound is a predicate: a tree of comparisons of fields with values,
joined by *and*, *or* and *not*.

* `FieldRef` says where a field is found in a row;
* `Predicate` is the tree; `nodes` lists it from the root, `fields` the references in it;
* `conjunction` and `disjunction` join predicates and leave a single one as it is.

Main statements: `nodes_ne_nil`, `conjunction_singleton`, `fields_not`.
-/

namespace Sieve

/-- Where a field is found: on the root row, on a joined entity, or among the aliases. -/
structure FieldRef where
  /-- The name of the field in its schema. -/
  name : String
  /-- The name of the attribute or column. -/
  source : String
  /-- The join binding of the entity, if it is not the root. -/
  binding : Option String
  /-- The steps from the root row to the value. -/
  path : List Value
  /-- Whether the value is an alias selected by the query. -/
  isAlias : Bool
  deriving DecidableEq, Inhabited

namespace FieldRef

/-- A reference; a source that is not given is the name, an empty path is the name alone. -/
def of (name : String) (source : Option String) (binding : Option String) (path : List Value)
    (isAlias : Bool) : FieldRef :=
  ⟨name, source.getD name, binding, if path.isEmpty then [.text name] else path, isAlias⟩

/-- A reference to an attribute of the root row. -/
def plain (name : String) : FieldRef :=
  of name none none [] false

/-- The attribute or column to read; without a source the name. -/
def column (r : FieldRef) : String :=
  if r.source.isEmpty then r.name else r.source

end FieldRef

/-- A comparison of a field with a value. -/
inductive Comparison
  /-- Equal. -/
  | eq
  /-- Not equal. -/
  | ne
  /-- Less. -/
  | lt
  /-- Less or equal. -/
  | le
  /-- Greater. -/
  | gt
  /-- Greater or equal. -/
  | ge
  deriving DecidableEq, Repr, Inhabited

namespace Comparison

/-- The sign of a comparison. -/
def name : Comparison → String
  | eq => "=="
  | ne => "!="
  | lt => "<"
  | le => "<="
  | gt => ">"
  | ge => ">="

/-- All comparisons. -/
def all : List Comparison := [eq, ne, lt, le, gt, ge]

/-- The comparison with a sign. -/
def ofName? (s : String) : Option Comparison :=
  all.find? (·.name == s)

/-- Whether a value compares with another one in this way. -/
def holds (c : Comparison) (a b : Value) : Except Error Bool :=
  match c with
  | eq => a.equal b
  | ne => return !(← a.equal b)
  | lt => a.precedes false b
  | le => a.precedes true b
  | gt => b.precedes false a
  | ge => b.precedes true a

end Comparison

/-- A predicate on rows. -/
inductive Predicate
  /-- A constant. -/
  | const (b : Bool)
  /-- A constant that is no truth value. -/
  | oddConst (v : Value)
  /-- All children hold. -/
  | all (children : List Predicate)
  /-- Some child holds. -/
  | any (children : List Predicate)
  /-- The child does not hold. -/
  | not (child : Predicate)
  /-- A field compares with a value. -/
  | compare (ref : FieldRef) (c : Comparison) (v : Value)
  /-- A field compares with a value in a way that nothing is known about. -/
  | oddCompare (ref : FieldRef) (sign v : Value)
  /-- A field equals one of the values. -/
  | isIn (ref : FieldRef) (values : List Value)
  /-- A field is null. -/
  | isNull (ref : FieldRef)
  /-- A field matches a pattern. -/
  | like (ref : FieldRef) (pattern : String) (caseSensitive : Bool)
  /-- A field matches a pattern that is no text, or in a case that is given by no truth value. -/
  | oddLike (ref : FieldRef) (pattern caseSensitive : Value)
  /-- A field is a collection that holds the value. -/
  | contains (ref : FieldRef) (v : Value)
  /-- A node of the bare type, without a meaning. -/
  | bare
  /-- A node of a foreign type that refers to a field. -/
  | foreign (name : String) (ref : FieldRef)
  deriving Inhabited

namespace Predicate

/-- Both predicates hold. -/
def and (p q : Predicate) : Predicate := .all [p, q]

/-- One of the predicates holds. -/
def or (p q : Predicate) : Predicate := .any [p, q]

/-- All predicates hold; a single one is left as it is. -/
def conjunction : List Predicate → Predicate
  | [p] => p
  | ps => .all ps

/-- Some predicate holds; a single one is left as it is. -/
def disjunction : List Predicate → Predicate
  | [p] => p
  | ps => .any ps

@[simp] theorem conjunction_singleton (p : Predicate) : conjunction [p] = p := rfl

@[simp] theorem disjunction_singleton (p : Predicate) : disjunction [p] = p := rfl

mutual

/-- The nodes of a predicate, from the root, depth first. -/
def nodes : Predicate → List Predicate
  | .all ps => .all ps :: nodesOf ps
  | .any ps => .any ps :: nodesOf ps
  | .not p => .not p :: nodes p
  | p => [p]

/-- The nodes of all children. -/
def nodesOf : List Predicate → List Predicate
  | [] => []
  | p :: ps => nodes p ++ nodesOf ps

end

theorem nodes_ne_nil (p : Predicate) : p.nodes ≠ [] := by
  cases p <;> simp [nodes]

/-- The field that a node refers to itself. -/
def ref? : Predicate → Option FieldRef
  | .compare r _ _ | .oddCompare r _ _ | .isIn r _ | .isNull r | .like r _ _ | .oddLike r _ _
  | .contains r _ | .foreign _ r => some r
  | _ => none

/-- The fields that a predicate refers to, in the order of its nodes. -/
def fields (p : Predicate) : List FieldRef :=
  p.nodes.filterMap ref?

@[simp] theorem fields_not (p : Predicate) : (Predicate.not p).fields = p.fields := by
  have : ref? (Predicate.not p) = none := rfl
  simp [fields, nodes, this]

/-! ### Equality -/

/-- Whether two lists of values are equal item by item. -/
def equalValues (xs ys : List Value) : Except Error Bool :=
  Value.equalItems xs ys

mutual

/-- Whether two predicates are the same tree with equal values. -/
def equal : Predicate → Predicate → Except Error Bool
  | .const a, .const b => .ok (a == b)
  | .const a, .oddConst w => (Value.bool a).equal w
  | .oddConst v, .const b => v.equal (.bool b)
  | .oddConst v, .oddConst w => v.equal w
  | .all ps, .all qs => equalAll ps qs
  | .any ps, .any qs => equalAll ps qs
  | .not p, .not q => equal p q
  | .compare r c v, .compare s d w => if r = s ∧ c = d then v.equal w else .ok false
  | .oddCompare r c v, .oddCompare s d w =>
    if r = s then equalValues [c, v] [d, w] else .ok false
  | .isIn r vs, .isIn s ws => if r = s then equalValues vs ws else .ok false
  | .isNull r, .isNull s => .ok (r == s)
  | .like r p c, .like s q d => .ok (r == s && p == q && c == d)
  | .like r p c, .oddLike s q d => if r = s then equalValues [.text p, .bool c] [q, d] else .ok false
  | .oddLike r p c, .like s q d => if r = s then equalValues [p, c] [.text q, .bool d] else .ok false
  | .oddLike r p c, .oddLike s q d => if r = s then equalValues [p, c] [q, d] else .ok false
  | .contains r v, .contains s w => if r = s then v.equal w else .ok false
  | _, _ => .ok false

/-- Whether two lists of predicates are equal item by item. -/
def equalAll : List Predicate → List Predicate → Except Error Bool
  | [], qs => .ok qs.isEmpty
  | _ :: _, [] => .ok false
  | p :: ps, q :: qs => do if ← equal p q then equalAll ps qs else .ok false

end

end Predicate

end Sieve
