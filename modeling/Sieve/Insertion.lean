/-!
# Sorting with a test that may fail

Sorts by binary insertion behind the initial run of a list. The test says whether an item belongs
in front of another one; items of which neither belongs in front of the other keep their order. A
failure of the test is a failure of the sort, and only the tests that the insertion needs are made.

* `initialRun` takes the longest ascending or strictly descending run at the start;
* `insertSorted` inserts an item behind all items that it does not belong in front of;
* `sortBy` sorts.

Main statements: `sortBy_nil`, `sortBy_singleton`.
-/

namespace Sieve.Insertion

variable {ε α : Type}

/-- The place among the items `low … high` in front of which an item belongs, by bisection. -/
def place (before : α → α → Except ε Bool) (x : α) (xs : Array α) :
    Nat → Nat → Nat → Except ε Nat
  | 0, low, _ => .ok low
  | fuel + 1, low, high =>
    if low < high then
      let middle := low + (high - low) / 2
      match xs[middle]? with
      | none => .ok low
      | some y => do
        if ← before x y then place before x xs fuel low middle
        else place before x xs fuel (middle + 1) high
    else .ok low

/-- The sorted items with another one inserted behind all that it does not belong in front of. -/
def insertSorted (before : α → α → Except ε Bool) (xs : List α) (x : α) : Except ε (List α) := do
  let n ← place before x xs.toArray xs.length 0 xs.length
  return xs.take n ++ x :: xs.drop n

/-- The longest run at the start of `last :: xs` in which the test gives the same answer between
each item and the one before; the run is in reverse. -/
def run (before : α → α → Except ε Bool) (answer : Bool) (done : List α) (last : α) :
    List α → Except ε (List α × List α)
  | [] => .ok (last :: done, [])
  | x :: xs => do
    if (← before x last) == answer then run before answer (last :: done) x xs
    else return (last :: done, x :: xs)

/-- The initial run of a list in order, and the rest. A strictly descending run is turned round. -/
def initialRun (before : α → α → Except ε Bool) : List α → Except ε (List α × List α)
  | [] => .ok ([], [])
  | [x] => .ok ([x], [])
  | x :: y :: r => do
    if ← before y x then run before true [x] y r
    else
      let (done, rest) ← run before false [x] y r
      return (done.reverse, rest)

/-- The list in order. -/
def sortBy (before : α → α → Except ε Bool) (xs : List α) : Except ε (List α) := do
  let (sorted, rest) ← initialRun before xs
  rest.foldlM (insertSorted before) sorted

@[simp] theorem sortBy_nil (before : α → α → Except ε Bool) : sortBy before [] = .ok [] := rfl

@[simp] theorem sortBy_singleton (before : α → α → Except ε Bool) (x : α) :
    sortBy before [x] = .ok [x] := rfl

end Sieve.Insertion
