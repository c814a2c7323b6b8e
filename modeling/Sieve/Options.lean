import Sieve.Properties
import Sieve.Cursor.Pivot
import Sieve.SortOrder
/-!
# Options of a query

Options come from three layers: the global properties, the schema, and the call. A setting on a
later layer counts before those of the layers under it; null sets nothing.

* `Overrides` are the settings of a call, `Options` the settings in force, as they were given;
* `Options.resolve` puts the layers together; `Options.defaultOrdering` reads the ordering that
  stands in for a missing one.

Main statements: `setting_null`, `limitInForce_false`, `limitSetting_null`,
`defaultOrdering_null`.
-/

namespace Sieve

/-- The settings of a call; null sets nothing. -/
structure Overrides where
  /-- The limit where a request gives none; false switches it off. -/
  defaultLimit : Value
  /-- The greatest limit; false switches it off. -/
  maxLimit : Value
  /-- The ordering where a request gives none. -/
  defaultOrder : Value
  /-- The strategies that are allowed. -/
  paginationTypes : Value
  /-- The strategy where a request uses none. -/
  defaultPaginationType : Value
  /-- Whether invalid parameters are replaced instead of rejected. -/
  replaceInvalid : Value
  /-- Whether requests may give an ordering. -/
  ordering : Value
  /-- Whether requests may give filters. -/
  filtering : Value
  /-- What to do with an operator that a composite cannot express. -/
  policy : Value
  /-- The options that filter functions are called with. -/
  extra : Value
  /-- The function that makes cursors of rows. -/
  cursorFunction : Option CursorFunction
  /-- Names that no option has. -/
  unknown : List String
  deriving Inhabited

/-- A call that sets nothing. -/
def Overrides.none : Overrides :=
  ⟨.null, .null, .null, .null, .null, .null, .null, .null, .null, .null, .none, []⟩

/-- The settings in force. -/
structure Options where
  /-- The limit where a request gives none; null if there is none. -/
  defaultLimit : Value
  /-- The greatest limit; null if there is none. -/
  maxLimit : Value
  /-- The ordering where a request gives none; null if there is none. -/
  defaultOrder : Value
  /-- The strategies that are allowed. -/
  paginationTypes : Option (List Strategy)
  /-- The strategy where a request uses none. -/
  defaultPaginationType : Option Strategy
  /-- Whether invalid parameters are replaced instead of rejected. -/
  replaceInvalid : Value
  /-- Whether requests may give an ordering. -/
  ordering : Value
  /-- Whether requests may give filters. -/
  filtering : Value
  /-- What to do with an operator that a composite cannot express. -/
  policy : CompositePolicy
  /-- The options that filter functions are called with. -/
  extra : Value
  /-- The function that makes cursors of rows. -/
  cursorFunction : Option CursorFunction
  deriving Inhabited

/-- The strategy that a value names. -/
def Strategy.ofValue (v : Value) : Except Error Strategy :=
  match v with
  | .text s =>
    match Strategy.ofName? s with
    | some p => .ok p
    | none => .error (.notAMember "PaginationType" v)
  | _ => .error (.notAMember "PaginationType" v)

namespace Options

/-- Whether invalid parameters are replaced instead of rejected. -/
def replaces (o : Options) : Bool := o.replaceInvalid.truthy

/-- Whether requests may give an ordering. -/
def orders (o : Options) : Bool := o.ordering.truthy

/-- Whether requests may give filters. -/
def filters (o : Options) : Bool := o.filtering.truthy

/-- The first setting of two layers that is not null. -/
def setting (above below : Value) : Value :=
  if above.isNull then below else above

@[simp] theorem setting_null (below : Value) : setting .null below = below := rfl

/-- The limit that a setting puts in force; false puts none in force. -/
def limitInForce (v : Value) : Value :=
  if v = .bool false then .null else v

@[simp] theorem limitInForce_false : limitInForce (.bool false) = .null := by
  simp [limitInForce]

/-- The limit of two layers: null leaves it to the lower one, and false puts none in force. -/
def limitSetting (above below : Value) : Value :=
  if above.isNull then below else limitInForce above

@[simp] theorem limitSetting_null (below : Value) : limitSetting .null below = below := rfl

/-- A strategy as data. -/
def strategyValue (s : Strategy) : Value := .text s.name

/-- The option of a schema; without a schema it is null. -/
def ofSchema (schema : Option Schema) (option : Schema → Value) : Value :=
  (schema.map option).getD .null

/-- The strategies that a value lists, if it is not null. -/
def strategies (v : Value) : Except Error (Option (List Strategy)) :=
  if v.isNull then .ok none
  else do return some (← (← v.items).mapM Strategy.ofValue)

/-- The strategy that a value names, if it is not null. -/
def strategy (v : Value) : Except Error (Option Strategy) :=
  if v.isNull then .ok none else some <$> Strategy.ofValue v

/-- The settings in force for a call on a schema. -/
def resolve (global : Properties) (schema : Option Schema) (call : Overrides) :
    Except Error Options := do
  if !call.unknown.isEmpty then throw (.unknownOptions (call.unknown.mergeSort (· ≤ ·)))
  let types ← strategies (setting call.paginationTypes
    (setting (ofSchema schema (·.paginationTypes))
      ((global.paginationTypes.map fun ts => .list (ts.map strategyValue)).getD .null)))
  let defaultType ← strategy (setting call.defaultPaginationType
    (setting (ofSchema schema (·.defaultPaginationType))
      ((global.defaultPaginationType.map strategyValue).getD .null)))
  return {
    defaultLimit := limitSetting call.defaultLimit
      (limitSetting (ofSchema schema (·.defaultLimit)) global.defaultLimit)
    maxLimit := limitSetting call.maxLimit
      (limitSetting (ofSchema schema (·.maxLimit)) global.maxLimit)
    defaultOrder := setting call.defaultOrder (ofSchema schema (·.defaultOrder))
    paginationTypes := types
    defaultPaginationType := defaultType
    replaceInvalid := setting call.replaceInvalid (.bool global.replaceInvalid)
    ordering := setting call.ordering (.bool global.ordering)
    filtering := setting call.filtering (.bool global.filtering)
    policy := if call.policy.isNull then global.policy else .ofValue call.policy
    extra := setting call.extra (.map [])
    cursorFunction := call.cursorFunction }

/-- The value of an entry of an ordering given as a map, if it counts as given. -/
def orderEntry (entries : List (Value × Value)) (key : String) : Option Value :=
  (Value.lookup? key entries).filter (·.truthy)

/-- The names and directions of the ordering that a map gives. -/
def orderingOfMap (entries : List (Value × Value)) :
    Except Error (Option (List String) × Option (List Direction)) := do
  let names ← match orderEntry entries "order_by" with
    | none => pure none
    | some v => do pure (some ((← v.items).map Value.render))
  let directions ← match orderEntry entries "order_directions" with
    | none => pure none
    | some v => do pure (some (← (← v.items).mapM Direction.ofValue))
  return (names, directions)

/-- The names and directions of the ordering that stands in for a missing one. Data that does not
count as set gives none. -/
def defaultOrdering (o : Options) :
    Except Error (Option (Option (List String) × Option (List Direction))) :=
  if !o.defaultOrder.truthy then .ok none
  else
    match o.defaultOrder with
    | .map entries => some <$> orderingOfMap entries
    | _ => .error .missingAttribute

@[simp] theorem defaultOrdering_null (o : Options) (h : o.defaultOrder = .null) :
    o.defaultOrdering = .ok none := by
  simp [defaultOrdering, h, Value.truthy]

end Options

end Sieve
