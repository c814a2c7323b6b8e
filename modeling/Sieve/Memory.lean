import Sieve.Plan.Basic
import Sieve.Truth
import Sieve.Insertion
import Sieve.Value.Attribute
import Sieve.Value.Arithmetic
import Sieve.Value.Text
import Sieve.Like
/-!
# Queries on rows in memory

The answer of a predicate on a row, the order of two rows, and the rows that a window cuts out.

* `Aliases` computes the values of alias fields; other fields are read off the row;
* `Predicate.evaluate` answers in three-valued truth: a comparison with null is unknown;
* `compareRows` orders rows by keys, nulls at the place that the direction gives them;
* `fetch` takes the rows for which the predicate is true, puts them in order and cuts out a window.

Main statements: `evaluate_const`, `evaluate_all_nil`, `slice_ofNat`, `window_null`.
-/

namespace Sieve

/-- The functions that compute the values of aliases. -/
abbrev Aliases := List (String × (Value → Except Error Value))

/-- The value of a field of a row. -/
def FieldRef.read (aliases : Aliases) (row : Value) (r : FieldRef) : Except Error Value :=
  if r.isAlias then
    match aliases.lookup r.name with
    | some f => f row
    | none => .ok (row.named r.name)
  else if r.binding.isSome then row.atPath r.path
  else .ok (row.named r.column)

namespace Predicate

/-- The answer of a test of a value that is not null; null makes it unknown. -/
def unlessNull (v : Value) (test : Value → Except Error Truth) : Except Error Truth :=
  if v.isNull then .ok none else test v

/-- Whether a value equals one of a list; with a null in the list the answer no is unknown. -/
def amongValues (v : Value) (vs : List Value) : Except Error Truth := do
  if ← v.member? vs then return some true
  else return if vs.any Value.isNull then none else some false

/-- The answer of a constant that is no truth value: null is unknown, else a test decides. -/
def oddTruth (test : Value → Except Error Bool) (v : Value) : Except Error Truth := do
  if v.isNull then return none else return some (← test v)

/-- The answer of such a constant among children all of which have to hold: it fails if it equals
false. -/
def oddConjunct : Value → Except Error Truth :=
  oddTruth fun v => do return !(← v.equal (.bool false))

/-- The answer of such a constant among children one of which has to hold: it holds if it equals
true. -/
def oddDisjunct : Value → Except Error Truth :=
  oddTruth fun v => v.equal (.bool true)

/-- Whether the text of a value matches a pattern. -/
def matchText (pattern : String) (caseSensitive : Bool) (x : Value) : Except Error Bool := do
  return Like.accepts (some Like.escapeChar) caseSensitive pattern (← x.written)

/-- Whether the text of a value matches a pattern that may be no text; only texts are patterns. -/
def oddMatch (pattern caseSensitive x : Value) : Except Error Bool :=
  match pattern with
  | .text p =>
    if caseSensitive.isKey then matchText p caseSensitive.truthy x else .error .mismatch
  | _ => .error .mismatch

mutual

/-- The answer of a predicate on a row. -/
def evaluate (aliases : Aliases) (row : Value) : Predicate → Except Error Truth
  | .const b => .ok (some b)
  | .oddConst v => oddTruth (fun v => .ok v.truthy) v
  | .all ps => do return .all (← evaluateEach aliases row oddConjunct ps)
  | .any ps => do return .any (← evaluateEach aliases row oddDisjunct ps)
  | .not p => do return (← evaluate aliases row p).not
  | .isNull r => do return some (← r.read aliases row).isNull
  | .compare r c v => do
    unlessNull (← r.read aliases row) fun x => do return some (← c.holds x v)
  | .oddCompare r sign _ => do
    unlessNull (← r.read aliases row) fun _ => throw (if sign.isKey then .missingKey else .mismatch)
  | .isIn r vs => do unlessNull (← r.read aliases row) fun x => amongValues x vs
  | .like r p c => do
    unlessNull (← r.read aliases row) fun x => do return some (← matchText p c x)
  | .oddLike r p c => do
    unlessNull (← r.read aliases row) fun x => do return some (← oddMatch p c x)
  | .contains r v => do
    unlessNull (← r.read aliases row) fun x => do return some (← x.contains v)
  | .bare => throw .missingAttribute
  | .foreign name r => do
    unlessNull (← r.read aliases row) fun _ => throw (.unsupportedNode name)

/-- The answers of predicates on a row, in order; a failure of one is a failure of all. `constant`
answers for constants that are no truth values. -/
def evaluateEach (aliases : Aliases) (row : Value) (constant : Value → Except Error Truth) :
    List Predicate → Except Error (List Truth)
  | [] => .ok []
  | .oddConst v :: ps => do
    let t ← constant v
    let ts ← evaluateEach aliases row constant ps
    return t :: ts
  | p :: ps => do
    let t ← evaluate aliases row p
    let ts ← evaluateEach aliases row constant ps
    return t :: ts

end

/-- The answer of a predicate on a row as data: a constant answers itself, an unknown answer is
null. -/
def answer (aliases : Aliases) (row : Value) : Predicate → Except Error Value
  | .oddConst v => .ok v
  | p => do return ((← evaluate aliases row p).map Value.bool).getD .null

@[simp] theorem evaluate_const (aliases : Aliases) (row : Value) (b : Bool) :
    evaluate aliases row (.const b) = .ok (some b) := rfl

@[simp] theorem evaluate_all_nil (aliases : Aliases) (row : Value) :
    evaluate aliases row (.all []) = .ok (some true) := rfl

/-- Whether a row is selected: the predicate answers true. -/
def selects (aliases : Aliases) (p : Predicate) (row : Value) : Except Error Bool := do
  return (← p.answer aliases row) == .bool true

end Predicate

/-! ### Order of rows -/

/-- A row of a collection. -/
structure Row where
  /-- The place in the collection. -/
  position : Nat
  /-- The data. -/
  data : Value
  deriving Inhabited

/-- The rows of a collection. -/
def Row.collection (data : List Value) : List Row :=
  data.zipIdx.map fun e => ⟨e.2, e.1⟩

/-- The order that nulls have, if one of two values is null. -/
def compareNulls (d : Direction) (a b : Value) : Option Ordering :=
  match a.isNull, b.isNull with
  | true, true => some .eq
  | true, false => some (if d.nullPlace = .first then .lt else .gt)
  | false, true => some (if d.nullPlace = .first then .gt else .lt)
  | false, false => none

/-- The order of two values in a direction. -/
def compareValues (d : Direction) (a b : Value) : Except Error Ordering :=
  match compareNulls d a b with
  | some o => .ok o
  | none => do
    if ← a.equal b then return .eq
    else
      let o := if ← a.precedes false b then Ordering.lt else .gt
      return if d.ascending then o else o.swap

/-- The order of two rows by keys, the most significant one first. -/
def compareRows (aliases : Aliases) (keys : List SortKey) (a b : Value) :
    Except Error Ordering :=
  match keys with
  | [] => .ok .eq
  | k :: ks => do
    let x ← k.ref.read aliases a
    let y ← k.ref.read aliases b
    match ← compareValues k.direction x y with
    | .eq => compareRows aliases ks a b
    | o => return o

/-- The rows in the order of some keys; rows that the keys do not tell apart keep their order. -/
def sortRows (aliases : Aliases) (keys : List SortKey) (rows : List Row) :
    Except Error (List Row) :=
  if keys.isEmpty then .ok rows
  else Insertion.sortBy
    (fun a b => do return (← compareRows aliases keys a.data b.data) == .lt) rows

/-! ### Windows -/

/-- The place that an index counts to in a list of the given length; negative ones count from the
end. -/
def clampIndex (length : Nat) (i : Int) : Nat :=
  if i < 0 then (i + length).toNat else min i.toNat length

/-- The items from one index up to another. -/
def slice {α : Type} (xs : List α) (start : Int) (stop : Option Int) : List α :=
  let n := xs.length
  let a := clampIndex n start
  let b := (stop.map (clampIndex n)).getD n
  (xs.drop a).take (b - a)

/-- From an offset that is not negative on, a slice is what its name says. -/
theorem slice_ofNat {α : Type} (xs : List α) (start count : Nat) :
    slice xs start (some (start + count : Nat)) = (xs.drop start).take count := by
  have hneg : ∀ n : Nat, ¬ ((n : Int) < 0) := fun n => by omega
  simp only [slice, clampIndex, hneg, if_false, Option.map_some, Option.getD_some,
    Int.toNat_natCast]
  by_cases h : start ≤ xs.length
  · rw [Nat.min_eq_left h]
    by_cases h' : start + count ≤ xs.length
    · rw [Nat.min_eq_left h', Nat.add_sub_cancel_left]
    · rw [Nat.min_eq_right (by omega), List.take_of_length_le (by simp),
        List.take_of_length_le (by simp; omega)]
  · rw [List.drop_eq_nil_of_le (by omega), List.drop_eq_nil_of_le (by omega)]
    simp

/-- The place where a window ends: `limit` items after its start, or nowhere. -/
def windowEnd (start limit : Value) : Except Error Value :=
  if limit.isNull then .ok .null else start.plus limit

/-- The rows that an offset and a limit cut out. -/
def window {α : Type} (xs : List α) (limit offset : Value) : Except Error (List α) := do
  let start := if offset.truthy then offset else .int 0
  let stop ← windowEnd start limit
  return slice xs ((← start.position?).getD 0) (← stop.position?)

/-- Without a limit and an offset the window holds everything. -/
@[simp] theorem window_null {α : Type} (xs : List α) : window xs .null .null = .ok xs := by
  have h : (xs.drop (clampIndex xs.length 0)).take (xs.length - clampIndex xs.length 0) = xs := by
    simp [clampIndex]
  simpa [window, windowEnd, slice, Value.truthy, Value.isNull, bind, Except.bind, pure, Except.pure]
    using h

/-! ### Queries -/

/-- The rows that the predicate selects. -/
def selectRows (aliases : Aliases) (p : Predicate) (rows : List Row) : Except Error (List Row) :=
  rows.filterM (p.selects aliases ·.data)

/-- The rows that a plan asks for. -/
def fetch (aliases : Aliases) (rows : List Row) (q : Plan) : Except Error (List Row) := do
  let selected ← selectRows aliases q.predicate rows
  window (← sortRows aliases q.ordering selected) q.limit q.offset

/-- The number of rows that the predicate selects. -/
def count (aliases : Aliases) (rows : List Row) (p : Predicate) : Except Error Nat := do
  return (← selectRows aliases p rows).length

end Sieve
