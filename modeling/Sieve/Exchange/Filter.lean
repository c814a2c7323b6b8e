import Sieve.Exchange.Value
import Sieve.Filter
/-!
# Filters as JSON documents

A condition is an object with the list of its field, operator and value in the field `$filter`, a
group one with its kind and its filters in the field `$comb`.

* `Filter.ofJson` and `Filter.toJson` read and write filters; a condition that cannot be built is an
  error, and so is data that is no filter.

Main statement: `ofValue_conditionValue`.
-/

namespace Sieve

namespace Filter

/-- The filter that a value is. -/
def ofValue (v : Value) : Except Error Filter :=
  match ofValue? v with
  | some f => .ok f
  | none => .error .missingAttribute

theorem ofValue_conditionValue (c : Condition) : ofValue (conditionValue c) = .ok (condition c) := by
  simp [ofValue, ofValue?_conditionValue]

/-- The filter of a document. -/
def ofJson (j : Json) : Except Error Filter := do ofValue (← j.decode)

/-- The filters of a list. -/
def listOfJson (j : Json) : Except Error (List Filter) := j.items.mapM ofJson

/-- The document of a filter. -/
def toJson (f : Filter) : Json := f.toValue.toJson

/-- The document of a list of filters. -/
def listToJson (fs : List Filter) : Json := .array (fs.map toJson)

end Filter

end Sieve
