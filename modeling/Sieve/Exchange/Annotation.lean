import Sieve.Annotation
import Sieve.Exchange.Schema
/-!
# Annotations as JSON documents

A text names a type; a list starts with the name of a constructor, its arguments follow.

* `Datatype.ofName?` reads the names of types;
* `Annotation.ofJson` reads annotations, `Annotation.attributesOf` the attributes of a class.

Main statement: `ofJson_int`.
-/

namespace Sieve

/-- The type with a name. -/
def Datatype.ofName? : String → Option Datatype
  | "bool" => some .boolean
  | "int" => some .integer
  | "float" => some .double
  | "decimal" => some .decimal
  | "str" => some .text
  | "datetime" => some .datetime
  | "date" => some .date
  | "time" => some .time
  | "uuid" => some .uuid
  | "list" => some .list
  | "tuple" => some .tuple
  | "set" => some .set
  | "frozenset" => some .frozenSet
  | "dict" => some .map
  | "bytes" => some .bytes
  | "object" => some .object
  | "any" => some .any
  | "none" => some .null
  | "enum" => some (.enumeration "enum")
  | "int_enum" => some (.enumeration "int_enum")
  | "str_enum" => some (.enumeration "str_enum")
  | _ => none

namespace Annotation

/-- The annotation that a name stands for. -/
def ofName (name : String) : Except Error Annotation :=
  match Datatype.ofName? name with
  | some t => .ok (named t)
  | none => if name = "typevar" then .ok parameter else .error .missingKey

/-- A constructor applied to annotations. -/
def build (constructor : String) (args : List Annotation) : Except Error Annotation :=
  match constructor, args with
  | "optional", [a] => optional a
  | "union", as => unionOf as
  | "pipe", as => unionOf as
  | "mapped", [a] => .ok (column a)
  | "classvar", [a] => sharedOf a
  | "subclass", [a] => derivedOf a
  | "list", as => .ok (parametric .list as)
  | "tuple", as => .ok (parametric .tuple as)
  | "set", as => .ok (parametric .set as)
  | "dict", as => .ok (parametric .map as)
  | "frozenset", as => .ok (parametric .frozenSet as)
  | _, _ => .error .mismatch

mutual

/-- The annotation of a document. -/
def ofJson : Json → Except Error Annotation
  | .text s => ofName s
  | .array (.text "literal" :: vs) => .ok (choice (vs.map Json.toValue))
  | .array (.text "annotated" :: a :: _) => do return noted (← ofJson a)
  | .array (.text s :: js) => do build s (← ofJsonItems js)
  | _ => .error .mismatch

/-- The annotations of documents, in order. -/
def ofJsonItems : List Json → Except Error (List Annotation)
  | [] => .ok []
  | j :: js => do
    let a ← ofJson j
    return a :: (← ofJsonItems js)

end

theorem ofJson_int : ofJson (.text "int") = .ok (named .integer) := by
  simp [ofJson, ofName, Datatype.ofName?]

/-- The annotated attributes of a list of pairs of a name and an annotation. -/
def attributesOf (j : Json) (name : String) : Except Error (List (String × Annotation)) :=
  (j.named name).mapM fun e => do return (e.1, ← ofJson (e.2.getD .null))

end Annotation

end Sieve
