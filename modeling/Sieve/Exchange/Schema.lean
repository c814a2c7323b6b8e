import Sieve.Exchange.Predicate
import Sieve.Schema
/-!
# Schemas as JSON documents

* `Declarations.ofJson` reads what a schema is declared by; filter functions are known by name;
* `Schema.ofJson?` declares the schema of a document that may be null;
* `Field.toJson` writes what a schema knows about a field.

Main statement: `ofJson?_null`.
-/

namespace Sieve

namespace Json

/-- The entry of a declaration: a pair of a name and data, or a name alone. -/
def namedEntry : Json → String × Option Json
  | array [n, x] => (n.string, some x)
  | j => (j.string, none)

/-- The entries with the data of a name replaced, or with a new name at the end. -/
def putNamed (es : List (String × Option Json)) (e : String × Option Json) :
    List (String × Option Json) :=
  if es.any (·.1 == e.1) then es.map fun f => if f.1 == e.1 then e else f else es ++ [e]

/-- The entries of a list of names or of pairs of a name and data. Of two pairs with one name the
later data count, at the place of the earlier pair. -/
def named (j : Json) (name : String) : List (String × Option Json) :=
  match j.part name with
  | object es => es.map fun e => (e.1, some e.2)
  | j =>
    let es := j.items.map namedEntry
    if es.all (·.2.isSome) then es.foldl putNamed [] else es

/-- The values of the entries of a list of pairs; what is missing is null. -/
def namedValues (j : Json) (name : String) : List (String × Value) :=
  (j.named name).map fun e => (e.1, ((e.2.map toValue).getD .null))

/-- A value; a missing one is the given one. -/
def valueOr (j : Json) (name : String) (default : Value) : Value :=
  ((j.given? name).map toValue).getD default

end Json

/-- The declaration of a joined column; a list stands for a tuple. -/
def joinOfValue : Value → Value
  | .list xs => .tuple xs
  | v => v

/-- The entry for a field with a filter function. -/
def CustomEntry.ofJson? (functions : String → Option FilterFunction) (j : Json) :
    Option CustomEntry :=
  match j with
  | .object _ => some ⟨(j.string? "filter").bind functions, j.valueAt "options",
      (j.field? "type").map Json.toValue, j.valueAt "operators"⟩
  | _ => none

/-- The declarations of a document. -/
def Declarations.ofJson (functions : String → Option FilterFunction) (j : Json) :
    Declarations where
  name := (j.string? "name").getD "s"
  fields := (j.named "fields").map fun e => (e.1, e.2.map Json.toValue)
  filterable := j.valueOr "filterable" (.list [])
  sortable := j.valueOr "sortable" (.list [])
  aliases := j.stringsAt "alias_fields"
  joins := (j.namedValues "join_fields").map fun e => (e.1, joinOfValue e.2)
  composites := j.namedValues "composite_fields"
  customs := (j.named "custom_fields").map fun e => (e.1, e.2.bind (CustomEntry.ofJson? functions))
  defaultLimit := j.valueAt "default_limit"
  maxLimit := j.valueAt "max_limit"
  defaultOrder := j.valueAt "default_order"
  paginationTypes := j.valueAt "pagination_types"
  defaultPaginationType := j.valueAt "default_pagination_type"

/-- The schema of a document; null stands for no schema. -/
def Schema.ofJson? (functions : String → Option FilterFunction) (j : Json) :
    Except Error (Option Schema) :=
  match j with
  | .null => .ok none
  | j => some <$> Schema.declare (.ofJson functions j)

@[simp] theorem Schema.ofJson?_null (functions : String → Option FilterFunction) :
    Schema.ofJson? functions .null = .ok none := rfl

/-- The documents of texts in the order of their code points. -/
def Json.sortedTexts (xs : List String) : Json :=
  .texts (xs.mergeSort fun a b => decide (a ≤ b))

/-- The document of some operators. -/
def Operator.listToJson (ops : List Operator) : Json :=
  .sortedTexts (ops.map Operator.name)

/-- The document of a field. -/
def Field.toJson (f : Field) : Json :=
  .object ([("name", .text f.name), ("kind", .text f.kind.name),
    ("storage_type", .text f.type.name), ("operators", Operator.listToJson f.operators)] ++
    (f.ref?.toList.map fun r => ("ref", r.toJson)) ++
    match f with
    | .join _ b c p _ _ => [("binding", .ofOption b), ("field", .ofOption c),
        ("path", .array (p.map Value.toJson))]
    | .composite _ ms => [("members", .texts ms)]
    | .custom _ _ o _ _ => [("filter_options", (Value.map o).toJson)]
    | _ => [])

/-- The fields of the document of a schema. -/
def Schema.toFields (s : Schema) : List (String × Json) :=
  [("repr", .text s.describe), ("fields", .array (s.fields.map Field.toJson)),
    ("filterable", .texts s.filterable), ("sortable", .texts s.sortable),
    ("default_limit", s.defaultLimit.toJson), ("max_limit", s.maxLimit.toJson),
    ("default_order", s.defaultOrder.toJson), ("pagination_types", s.paginationTypes.toJson),
    ("default_pagination_type", s.defaultPaginationType.toJson)]

end Sieve
