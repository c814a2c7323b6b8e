import Sieve.SortOrder
/-!
# Plans

A plan says which rows to fetch, in which order, and which part of them.

* `Plan` is what sources of rows are asked.
-/

namespace Sieve

/-- What is asked of a source of rows. -/
structure Plan where
  /-- The rows that are asked for. -/
  predicate : Predicate
  /-- The keys to order by. -/
  ordering : List SortKey
  /-- The greatest number of rows; null if there is none. -/
  limit : Value
  /-- The number of rows to skip; null if none is given. -/
  offset : Value
  /-- Whether the rows come in the opposite of the requested order. -/
  backward : Bool
  deriving Inhabited

end Sieve
