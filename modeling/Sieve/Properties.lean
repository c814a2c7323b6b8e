import Sieve.Intake
import Sieve.Selection
import Sieve.Strategy
/-!
# Global properties of queries

The options that hold for all queries unless a schema or a call sets them.

* `Properties.standard` are the properties where nothing is set;
* `Properties.read` reads them from a map; all complaints are collected.

Main statement: `read_nil`.
-/

namespace Sieve

/-- The options that hold for all queries. -/
structure Properties where
  /-- The limit where a request gives none; null if there is none. -/
  defaultLimit : Value
  /-- The greatest limit; null if there is none. -/
  maxLimit : Value
  /-- The strategy where a request uses none. -/
  defaultPaginationType : Option Strategy
  /-- The strategies that are allowed. -/
  paginationTypes : Option (List Strategy)
  /-- Whether invalid parameters are replaced instead of rejected. -/
  replaceInvalid : Bool
  /-- Whether requests may give an ordering. -/
  ordering : Bool
  /-- Whether requests may give filters. -/
  filtering : Bool
  /-- What to do with an operator that a composite cannot express. -/
  policy : CompositePolicy
  deriving Inhabited

namespace Properties

/-- The properties where nothing is set. -/
def standard : Properties :=
  ⟨.null, .null, none, none, false, true, true, .warn⟩

/-- The strategy of a word. -/
def strategy (path : String) (v : Value) : Intake.Outcome Strategy := do
  let name ← Intake.choice path ["offset", "page", "first", "last"] v
  return (Strategy.ofName? name).getD .offset

/-- The policy of a word. -/
def policyOf (path : String) (v : Value) : Intake.Outcome CompositePolicy := do
  return .ofValue (.text (← Intake.choice path ["warn_and_ignore", "error"] v))

/-- Reads an entry of a map; an entry that is missing has the standard value. -/
def entry {α : Type} (entries : List (Value × Value)) (key : String) (standard : α)
    (read : String → Value → Intake.Outcome α) : Intake.Outcome α :=
  match Value.lookup? key entries with
  | none => .ok standard
  | some v => read key v

/-- Reads an entry that may be null. -/
def optionalEntry {α : Type} (entries : List (Value × Value)) (key : String)
    (read : String → Value → Intake.Outcome α) : Intake.Outcome (Option α) :=
  entry entries key none fun path v => Intake.optional (read path) v

/-- Reads a limit: null, or a number of at least 1. -/
def limit (path : String) (v : Value) : Intake.Outcome Value :=
  if v.isNull then .ok .null else Intake.positive path v

/-- Both results, or the complaints of both. -/
def both {α β : Type} (a : Intake.Outcome α) (b : Intake.Outcome β) : Intake.Outcome (α × β) :=
  match a, b with
  | .ok a, .ok b => .ok (a, b)
  | .error ds, .ok _ => .error ds
  | .ok _, .error ds => .error ds
  | .error ds, .error es => .error (ds ++ es)

/-- The properties that a map sets; other entries are not used. -/
def read (entries : List (Value × Value)) : Intake.Outcome Properties := do
  let r ←
    both (entry entries "default_limit" .null limit) <|
    both (entry entries "max_limit" .null limit) <|
    both (optionalEntry entries "default_pagination_type" strategy) <|
    both (optionalEntry entries "pagination_types" fun path => Intake.list path strategy) <|
    both (entry entries "replace_invalid_params" standard.replaceInvalid Intake.flag) <|
    both (entry entries "ordering" standard.ordering Intake.flag) <|
    both (entry entries "filtering" standard.filtering Intake.flag)
      (entry entries "on_unsupported_composite_op" standard.policy policyOf)
  let (defaultLimit, maxLimit, defaultType, types, replaceInvalid, ordering, filtering, policy) := r
  return ⟨defaultLimit, maxLimit, defaultType, types, replaceInvalid, ordering, filtering, policy⟩

@[simp] theorem read_nil : read [] = .ok standard := rfl

/-- The properties as a map. -/
def toValue (p : Properties) : Value :=
  .record [
    ("default_limit", p.defaultLimit),
    ("max_limit", p.maxLimit),
    ("default_pagination_type", (p.defaultPaginationType.map fun s => .text s.name).getD .null),
    ("pagination_types",
      (p.paginationTypes.map fun l => .list (l.map fun s => .text s.name)).getD .null),
    ("replace_invalid_params", .bool p.replaceInvalid),
    ("ordering", .bool p.ordering),
    ("filtering", .bool p.filtering),
    ("on_unsupported_composite_op", p.policy.toValue)]

end Properties

end Sieve
