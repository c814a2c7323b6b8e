import Sieve.Validation.Checking
import Sieve.Options
import Sieve.Params
/-!
# Checking the ordering

* `Options.orderingOf` takes the ordering of the parameters, or the one that stands in for it;
* `Validation.order` checks that a schema admits the fields, or drops those that it does not; the others
  are kept with the directions at their places (`Validation.keep`).

Main statements: `keep_names`, `unsortable_isEmpty_iff`, `givenDirections_nil`.
-/

namespace Sieve

/-- The names and directions that stand for the ordering of a request. -/
abbrev OrderParams := Option (List String) × Option (List Direction)

/-- The ordering of the parameters, or the one that stands in for it if they give none. -/
def Options.orderingOf (o : Options) (s : Scalars) : Except Error OrderParams :=
  match s.orderBy with
  | some names => .ok (some names, s.directions)
  | none => do return (← o.defaultOrdering).getD (none, s.directions)

namespace Validation

/-- Directions that count as given: at least one. -/
def givenDirections (ds : Option (List Direction)) : Option (List Direction) :=
  ds.filter (!·.isEmpty)

@[simp] theorem givenDirections_nil : givenDirections (some []) = none := rfl

/-- The direction at a place; ascending where none is given for it. -/
def directionAt (ds : List Direction) (place : Nat) : Direction :=
  ds[place]?.getD .asc

/-- The names that are not dropped, each with the direction at its place. -/
def keep (dropped names : List String) (ds : List Direction) : SortOrder :=
  (names.zipIdx.filter (!dropped.contains ·.1)).map fun e => ⟨e.1, directionAt ds e.2⟩

theorem keep_names (dropped names : List String) (ds : List Direction) :
    (keep dropped names ds).names = names.filter (!dropped.contains ·) := by
  have hnames : names.filter (!dropped.contains ·) =
      (names.zipIdx.map Prod.fst).filter (!dropped.contains ·) := by
    rw [List.zipIdx_map_fst]
  rw [hnames, List.filter_map, keep, SortOrder.names, List.map_map]
  rfl

theorem keep_names_sortable (schema : Schema) (names : List String) (ds : List Direction) :
    (keep (names.filter (!schema.isSortable ·)) names ds).names =
      names.filter schema.isSortable := by
  rw [keep_names]
  refine List.filter_congr fun n hn => ?_
  cases h : schema.isSortable n <;> simp [hn, h]

/-- There is no name to drop if the schema admits all. -/
theorem unsortable_isEmpty_iff {schema : Schema} {names : List String} :
    (names.filter (!schema.isSortable ·)).isEmpty = true ↔
      ∀ n ∈ names, schema.isSortable n = true := by
  simp [List.isEmpty_iff, List.filter_eq_nil_iff]

/-- Checks the fields of an ordering against a schema. -/
def sortable (schema : Schema) (o : Options) (names : List String)
    (directions : Option (List Direction)) : Checking OrderParams := do
  let invalid := names.filter (!schema.isSortable ·)
  if invalid.isEmpty then return (some names, directions)
  else if o.replaces then do
    Checking.report (.orderFieldsDropped invalid schema.name)
    let kept := keep invalid names (directions.getD [])
    return (some kept.names, directions.map fun _ => kept.map (·.direction))
  else do
    Checking.complain "order_by" "is invalid"
    return (some names, directions)

/-- Checks the ordering. -/
def order (s : Scalars) (schema : Option Schema) (o : Options) : Checking OrderParams := do
  let (names, directions) ← Checking.lift (o.orderingOf s)
  let directions := givenDirections directions
  match names, schema with
  | some names, some schema => do
    let (names, directions) ← sortable schema o names directions
    return (names, givenDirections directions)
  | names, _ => return (names, directions)

end Validation

end Sieve
