import Sieve.Exchange.Value
import Sieve.Predicate
/-!
# Predicates as JSON documents

A predicate is an object with the kind of its node in the field `t`. A field reference is an object
with its parts, or just its name.

* `FieldRef.ofJson` and `FieldRef.toJson` read and write references;
* `Predicate.ofJson` and `Predicate.toJson` read and write predicates; nodes that nothing is known
  about cannot be written.

Main statements: `ofJson_text`, `toJson_bare`.
-/

namespace Sieve

namespace FieldRef

/-- The reference of a document. -/
def ofJson : Json → FieldRef
  | .text s => .plain s
  | j => .of (j.stringAt "name") (j.string? "source") (j.string? "binding") (j.part "path").values
      (j.truthyAt "alias")

@[simp] theorem ofJson_text (s : String) : ofJson (.text s) = .plain s := rfl

/-- The document of a reference. -/
def toJson (r : FieldRef) : Json :=
  .object [("name", .text r.name), ("source", .text r.source), ("binding", .ofOption r.binding),
    ("path", .array (r.path.map Value.toJson)), ("alias", .bool r.isAlias)]

end FieldRef

namespace Predicate

/-- The name of the node that is known by its reference only. -/
def foreignName : String := "OddNode"

/-- The constant that a value is. -/
def constOf : Value → Predicate
  | .bool b => .const b
  | v => .oddConst v

/-- The comparison of a field with a value in the way that a sign says. -/
def compareOf (r : FieldRef) (sign v : Value) : Predicate :=
  match sign with
  | .text s =>
    match Comparison.ofName? s with
    | some c => .compare r c v
    | none => .oddCompare r sign v
  | _ => .oddCompare r sign v

/-- The match of a field with a pattern. -/
def likeOf (r : FieldRef) : Value → Value → Predicate
  | .text p, .bool c => .like r p c
  | p, c => .oddLike r p c

/-- The node of a document without children. -/
def leafOfJson (j : Json) : Predicate :=
  let r := FieldRef.ofJson (j.part "ref")
  let v := j.valueAt "value"
  match j.stringAt "t" with
  | "const" => constOf v
  | "compare" => compareOf r (j.valueAt "op") v
  | "in" => .isIn r (j.part "values").values
  | "isnull" => .isNull r
  | "like" =>
    likeOf r (j.valueAt "pattern") (((j.field? "case_sensitive").map Json.toValue).getD (.bool true))
  | "contains" => .contains r v
  | "odd" => .foreign foreignName r
  | _ => .bare

mutual

/-- The predicate of a document. -/
def ofJson : Json → Predicate
  | .object es =>
    match (Json.object es).stringAt "t" with
    | "and" => .all (childrenOf es)
    | "or" => .any (childrenOf es)
    | "not" => .not (childOf es)
    | _ => leafOfJson (.object es)
  | _ => .bare

/-- The predicates in the field `children`. -/
def childrenOf : List (String × Json) → List Predicate
  | [] => []
  | (k, .array xs) :: r => if k = "children" then ofJsonItems xs else childrenOf r
  | _ :: r => childrenOf r

/-- The predicate in the field `child`. -/
def childOf : List (String × Json) → Predicate
  | [] => .bare
  | (k, j) :: r => if k = "child" then ofJson j else childOf r

/-- The predicates of documents, in order. -/
def ofJsonItems : List Json → List Predicate
  | [] => []
  | j :: r => ofJson j :: ofJsonItems r

end

/-- The document of a node. -/
def node (kind : String) (fields : List (String × Json)) : Json :=
  .object (("t", .text kind) :: fields)

mutual

/-- The document of a predicate. -/
def toJson : Predicate → Except Error Json
  | .const b => .ok (node "const" [("value", .bool b)])
  | .oddConst v => .ok (node "const" [("value", v.toJson)])
  | .all ps => do return node "and" [("children", .array (← toJsonItems ps))]
  | .any ps => do return node "or" [("children", .array (← toJsonItems ps))]
  | .not p => do return node "not" [("child", ← toJson p)]
  | .compare r c v =>
    .ok (node "compare" [("ref", r.toJson), ("op", .text c.name), ("value", v.toJson)])
  | .oddCompare r c v =>
    .ok (node "compare" [("ref", r.toJson), ("op", c.toJson), ("value", v.toJson)])
  | .isIn r vs => .ok (node "in" [("ref", r.toJson), ("values", .array (vs.map Value.toJson))])
  | .isNull r => .ok (node "isnull" [("ref", r.toJson)])
  | .like r p c =>
    .ok (node "like" [("ref", r.toJson), ("pattern", .text p), ("case_sensitive", .bool c)])
  | .oddLike r p c =>
    .ok (node "like" [("ref", r.toJson), ("pattern", p.toJson), ("case_sensitive", c.toJson)])
  | .contains r v => .ok (node "contains" [("ref", r.toJson), ("value", v.toJson)])
  | .bare => .error .missingAttribute
  | .foreign _ _ => .error .missingAttribute

/-- The documents of predicates, in order. -/
def toJsonItems : List Predicate → Except Error (List Json)
  | [] => .ok []
  | p :: r => do
    let j ← toJson p
    let js ← toJsonItems r
    return j :: js

end

@[simp] theorem toJson_bare : toJson .bare = .error .missingAttribute := rfl

/-- The name of the kind of a node. -/
def kindName : Predicate → String
  | .const _ | .oddConst _ => "Const"
  | .all _ => "And"
  | .any _ => "Or"
  | .not _ => "Not"
  | .compare .. | .oddCompare .. => "Compare"
  | .isIn .. => "In"
  | .isNull _ => "IsNull"
  | .like .. | .oddLike .. => "Like"
  | .contains .. => "Contains"
  | .bare => "Predicate"
  | .foreign n _ => n

end Predicate

end Sieve
