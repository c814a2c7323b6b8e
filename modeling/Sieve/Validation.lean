import Sieve.Validation.Order
import Sieve.Validation.Filters
import Sieve.Validation.Pagination
import Sieve.Validation.Parsing
/-!
# Validation

Untrusted parameters become a request, or all that is wrong with them is said at once. Only
parameters of two strategies, and tokens that are no cursors, are refused before that.

* `Validation.scalars` reads the scalar parameters and drops those that are invalid;
* `Params.validateWith` checks parameters with given options, `Params.validate` finds the options in
  force first.

Main statement: `validateWith_other`.
-/

namespace Sieve

namespace Validation

/-- Reads the scalar parameters; complaints are reported or collected. -/
def scalars (o : Options) (entries : List (Value × Value)) : Checking Scalars :=
  parse Scalars.model o (Scalars.model.given entries)

/-- The entries that options admit: without orderings those of an ordering are left out. -/
def admitted (o : Options) (entries : List (Value × Value)) : List (Value × Value) :=
  if o.orders then entries
  else entries.filter fun e => e.1 != .text "order_by" && e.1 != .text "order_directions"

/-- Checks all parameters. -/
def request (schema : Option Schema) (o : Options) (entries : List (Value × Value)) :
    Checking Request := do
  let entries := admitted o entries
  let s ← scalars o entries
  let used ← Checking.lift (conflict s.pagination)
  let (orderBy, directions) ← order s schema o
  let fs ← if o.filters then filters schema o ((Value.lookup? "filters" entries).getD .null)
    else pure []
  let (p, cursor) ← pagination schema o orderBy s.pagination used
  return ⟨fs, orderBy, directions, p, cursor⟩

end Validation

namespace Params

/-- The request of some parameters, with the options in force. -/
def validateWith (params : Params) (schema : Option Schema) (o : Options) : Traced Request := do
  let entries ← Traced.lift params.toEntries
  let (checked, messages) ← Validation.request schema o entries []
  if messages.isEmpty then return checked
  else Traced.fail (.invalidParameters messages (schema.map (·.name)))

/-- The request of some parameters, with the options of a call. -/
def validate (params : Params) (global : Properties) (schema : Option Schema) (call : Overrides) :
    Traced Request := do
  params.validateWith schema (← Traced.lift (Options.resolve global schema call))

theorem validateWith_other (v : Value) (schema : Option Schema) (o : Options) :
    (other v).validateWith schema o = ⟨[], .error (.notParameters v)⟩ := rfl

end Params

end Sieve
