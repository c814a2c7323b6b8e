import Sieve.Field
import Sieve.Value.Items
/-!
# Schemas

A schema declares the fields of an entity, which of them filters and orderings may name, and the
options of queries on it.

* `Declarations` is what a schema is declared by, `Schema.declare` checks it;
* `Schema.get?` and `Schema.resolve` find a field by its name; `resolveField` also works without a
  schema, where every name is a field of any type.

Main statements: `resolve_eq_ok_iff`, `resolveField_none`.
-/

namespace Sieve

/-- An entry for a field with a filter function. -/
structure CustomEntry where
  /-- The filter function, if one is given. -/
  filter : Option FilterFunction
  /-- The options that the function is called with. -/
  options : Value
  /-- The storage type, if one is given. -/
  type : Option Value
  /-- The operators; null stands for all of them. -/
  operators : Value

/-- What a schema is declared by. -/
structure Declarations where
  /-- The name of the schema. -/
  name : String
  /-- The columns of the entity with their storage types. -/
  fields : List (String × Option Value)
  /-- The names that filters may use. -/
  filterable : Value
  /-- The names that orderings may use. -/
  sortable : Value
  /-- The aliases. -/
  aliases : List String
  /-- The joined columns: a map of binding, column, path, storage type and operators, or a tuple of
  binding and column. -/
  joins : List (String × Value)
  /-- The composites with their members. -/
  composites : List (String × Value)
  /-- The fields with a filter function; data that is no map is no entry. -/
  customs : List (String × Option CustomEntry)
  /-- The limit where a request gives none. -/
  defaultLimit : Value
  /-- The greatest limit. -/
  maxLimit : Value
  /-- The ordering where a request gives none. -/
  defaultOrder : Value
  /-- The strategies that are allowed. -/
  paginationTypes : Value
  /-- The strategy where a request uses none. -/
  defaultPaginationType : Value
  deriving Inhabited

/-- The fields of an entity and the options of queries on it. An option that is null is not set. -/
structure Schema where
  /-- The name of the schema. -/
  name : String
  /-- The fields in the order of their declarations. -/
  fields : List Field
  /-- The names that filters may use. -/
  filterable : List String
  /-- The names that orderings may use. -/
  sortable : List String
  /-- The limit where a request gives none; false switches it off. -/
  defaultLimit : Value
  /-- The greatest limit; false switches it off. -/
  maxLimit : Value
  /-- The ordering where a request gives none. -/
  defaultOrder : Value
  /-- The strategies that are allowed. -/
  paginationTypes : Value
  /-- The strategy where a request uses none. -/
  defaultPaginationType : Value
  deriving Inhabited

/-- The storage type that a declaration names. -/
def StorageType.declared (v : Option Value) : Except Error StorageType :=
  match v with
  | none => .ok .any
  | some v =>
    match StorageType.ofName? v.render with
    | some t => .ok t
    | none => .error (.unknownStorageType v)

/-- The operators that a declaration names; null stands for the given ones. -/
def Operator.declared (default : List Operator) (names : Value) : Except Error (List Operator) :=
  if names.isNull then .ok default
  else do
    (← names.items).mapM fun v =>
      if v.isWritable then
        match Operator.ofName? v.render with
        | some op => .ok op
        | none => .error (.unknownOperator (.text v.render))
      else .error .unwritableOperator

namespace Field

/-- The name that a declaration gives; null gives none. -/
def givenName? (v : Value) : Option String :=
  if v.isNull then none else some v.render

/-- The path that a declaration gives, or else the given one. -/
def declaredPath (default : List Value) (path : Value) : Except Error (List Value) :=
  if path.truthy then path.items else .ok default

/-- The joined column of a map of its parts. -/
def ofJoinEntries (name : String) (es : List (Value × Value)) : Except Error Field := do
  let get (key : String) : Value := (Value.lookup? key es).getD .null
  let t ← StorageType.declared (Value.lookup? "type" es)
  match Value.lookup? "binding" es, Value.lookup? "field" es with
  | some b, some c => do
    let path ← declaredPath [b, c] (get "path")
    let ops ← Operator.declared (Operator.forType t) (get "operators")
    return .join name (givenName? b) (givenName? c) path t ops
  | _, _ => throw .missingKey

/-- The joined column of a declaration. -/
def ofJoin (name : String) (spec : Value) : Except Error Field :=
  match spec with
  | .tuple (b :: c :: _) => ofJoinEntries name [(.text "binding", b), (.text "field", c)]
  | .tuple _ => .error .missingIndex
  | .map es => ofJoinEntries name es
  | _ => .error .missingAttribute

/-- The custom field of an entry. -/
def ofCustom (name : String) (entry : Option CustomEntry) : Except Error Field :=
  match entry with
  | none => .error .missingAttribute
  | some entry =>
    match entry.filter with
    | none => .error (.uncallableFilter name)
    | some f => do
      let options ← if entry.options.truthy then entry.options.entries else pure []
      let t ← StorageType.declared entry.type
      let ops ← Operator.declared Operator.all entry.operators
      return .custom name f options t ops

/-- The composite of a declaration. Members that are no texts name no field; they are refused when
the members are checked. -/
def ofComposite (name : String) (members : Value) : Except Error Field := do
  return .composite name ((← members.items).map Value.render)

end Field

namespace Declarations

/-- The declared fields in order, each to be checked when its turn comes. -/
def fieldEntries (d : Declarations) : List (Except Error Field) :=
  (d.fields.map fun e => (StorageType.declared e.2).map (Field.plain e.1)) ++
  d.aliases.map (fun n => .ok (Field.isAlias n)) ++
  d.joins.map (fun e => Field.ofJoin e.1 e.2) ++
  d.composites.map (fun e => Field.ofComposite e.1 e.2) ++
  d.customs.map (fun e => Field.ofCustom e.1 e.2)

end Declarations

namespace Schema

/-- The field with a name. -/
def get? (s : Schema) (name : String) : Option Field :=
  s.fields.find? (·.name == name)

/-- Whether a field has the name. -/
def declares (s : Schema) (name : String) : Bool :=
  (s.get? name).isSome

/-- Whether filters may use the name. -/
def isFilterable (s : Schema) (name : String) : Bool :=
  s.filterable.contains name

/-- Whether orderings may use the name. -/
def isSortable (s : Schema) (name : String) : Bool :=
  s.sortable.contains name

/-- The field with a name; an unknown name is an error. -/
def resolve (s : Schema) (name : String) : Except Error Field :=
  match s.get? name with
  | some f => .ok f
  | none => .error (.unknownField s.name name)

theorem resolve_eq_ok_iff {s : Schema} {name : String} {f : Field} :
    s.resolve name = .ok f ↔ s.get? name = some f := by
  unfold resolve
  split <;> simp_all

/-- The schema written for reading: its name and the names of its fields. -/
def describe (s : Schema) : String :=
  String.ofList ("Schema(".toList ++ (Value.text s.name).quoted ++ ", fields=".toList ++
    (Value.list (s.fields.map fun f => .text f.name)).quoted ++ [')'])

/-- Adds fields in order, refusing a name that is already taken. -/
def collect (schema : String) (known : List Field) :
    List (Except Error Field) → Except Error (List Field)
  | [] => .ok known
  | e :: r => do
    let f ← e
    if known.any (·.name == f.name) then .error (.duplicateField schema f.name)
    else collect schema (known ++ [f]) r

/-- Whether a value is the name of a field. -/
def names (s : Schema) : Value → Bool
  | .text n => s.declares n
  | _ => false

/-- The name that a text is. -/
def nameOf : Value → Except Error String
  | .text n => .ok n
  | _ => .error .mismatch

/-- The given values that are no names of fields. Only texts among them can be reported. -/
def unknownNames (s : Schema) (given : List Value) : Except Error (List String) :=
  (given.filter (!s.names ·)).mapM nameOf

/-- Checks that composites have declared members only. -/
def checkMembers (s : Schema) : List (String × Value) → Except Error Unit
  | [] => .ok ()
  | (name, members) :: r => do
    let unknown ← s.unknownNames (← members.items)
    if unknown.isEmpty then checkMembers s r else throw (.unknownMembers s.name name unknown)

/-- Checks that a capability names declared fields only. -/
def checkDeclared (s : Schema) (capability : String) (names : List Value) : Except Error Unit := do
  let unknown ← s.unknownNames names
  if unknown.isEmpty then return () else throw (.undeclared s.name capability unknown)

/-- The first of the names whose field has a kind. -/
def firstOfKind? (s : Schema) (kind : FieldKind) (names : List String) : Option String :=
  names.find? fun n => (s.get? n).any (·.kind == kind)

/-- Checks a schema against its declarations: members and capabilities name declared fields, no
alias is filterable, no custom field is sortable. -/
def check (s : Schema) (composites : List (String × Value)) (filterable sortable : List Value) :
    Except Error Unit := do
  s.checkMembers composites
  s.checkDeclared "filterable" filterable
  s.checkDeclared "sortable" sortable
  match s.firstOfKind? .isAlias s.filterable with
  | some n => throw (.filterableAlias n)
  | none => pure ()
  match s.firstOfKind? .custom s.sortable with
  | some n => throw (.sortableCustom n)
  | none => pure ()

/-- A setting that is null, or else what a function makes of it. -/
def optional (v : Value) (f : Value → Except Error Value) : Except Error Value :=
  if v.isNull then .ok .null else f v

/-- The schema of some declarations, if they are in order. -/
def declare (d : Declarations) : Except Error Schema := do
  let filterable ← d.filterable.items
  let sortable ← d.sortable.items
  let order ← optional d.defaultOrder fun v => do return .map (← v.entries)
  let types ← optional d.paginationTypes fun v => do return .list (← v.items)
  let fields ← collect d.name [] d.fieldEntries
  let s : Schema := ⟨d.name, fields, filterable.map Value.render, sortable.map Value.render,
    d.defaultLimit, d.maxLimit, order, types, d.defaultPaginationType⟩
  s.check d.composites filterable sortable
  return s

end Schema

/-- The field with a name; without a schema every name is a field of any type. -/
def resolveField (schema : Option Schema) (name : String) : Except Error Field :=
  match schema with
  | none => .ok (.untyped name)
  | some s => s.resolve name

@[simp] theorem resolveField_none (name : String) :
    resolveField none name = .ok (.untyped name) := rfl

end Sieve
