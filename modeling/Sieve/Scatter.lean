import Sieve.Number.Numeral
import Sieve.Number.Power
/-!
# Scatter tables

Items with integer keys, kept in a table of places. A key names a first place and, while the places
it names are taken, further ones; the order of the items is the order of their places.

* `Scatter` is a table, `free?` finds the place of a new key, `put` takes it;
* `insert` puts an item and lets a table grow that is three fifths full;
* `Scatter.ofList` puts a list of items, `Scatter.toList` reads the places in order.

Main statements: `size_put`, `toList_empty`.
-/

namespace Sieve

/-- The places of a table: each is free or holds a key with its item. -/
structure Scatter (α : Type) where
  /-- The places, first to last. -/
  places : Array (Option (Int × α))

namespace Scatter

variable {α : Type}

/-- A table of free places. -/
def empty (size : Nat) : Scatter α := ⟨.replicate size none⟩

/-- The number of places. -/
def size (t : Scatter α) : Nat := t.places.size

/-- The items, in the order of their places. -/
def toList (t : Scatter α) : List α := t.places.toList.filterMap fun p => p.map (·.2)

/-- The items with their keys, in the order of their places. -/
def entries (t : Scatter α) : List (Int × α) := t.places.toList.filterMap id

/-- The greatest key whose absolute value is used as it is; greater ones count modulo it. -/
def modulus : Nat := Power.two 61 - 1

/-- The word that a key is spread by: the key modulo a prime, with its sign, in 64 bits. Minus one
is spread like minus two. -/
def word (k : Int) : Nat :=
  let m := Numeral.signed (k < 0) (k.natAbs % modulus)
  ((if m = -1 then -2 else m) % (Power.two 64 : Int)).toNat

/-- The free place that a search finds which looks at a place, at the nine after it if the table has
them all, and then goes on at five times the place, plus one, plus the next higher bits of the
word. -/
def free? (t : Scatter α) : (fuel : Nat) → (place word : Nat) → Option Nat
  | 0, _, _ => none
  | fuel + 1, i, w =>
    let run := if i + 9 < t.size then 10 else 1
    match (List.range' i run).find? fun j => (t.places.getD j none).isNone with
    | some j => some j
    | none => free? t fuel ((i * 5 + 1 + w / 32) % t.size) (w / 32)

/-- The table with an item at the place that its key finds. Thirteen steps use the bits of the word
up; the steps after them meet every place. -/
def put (t : Scatter α) (k : Int) (x : α) : Scatter α :=
  match t.free? (13 + t.size) (word k % t.size) (word k) with
  | some j => ⟨t.places.setIfInBounds j (some (k, x))⟩
  | none => t

/-- The least size, doubled from a given one, that is greater than a bound. -/
def sizeAbove (bound : Nat) : (fuel size : Nat) → Nat
  | 0, n => n
  | fuel + 1, n => if bound < n then n else sizeAbove bound fuel (2 * n)

/-- The table with a further item. One that is three fifths full gets more than four places for an
item, and its items are put again in their order. -/
def insert (t : Scatter α) (k : Int) (x : α) : Scatter α :=
  let u := t.put k x
  let es := u.entries
  if es.length * 5 < (u.size - 1) * 3 then u
  else es.foldl (fun v e => v.put e.1 e.2) (empty (sizeAbove (4 * es.length) es.length 8))

/-- The table of some items, put one after the other into eight places. -/
def ofList (es : List (Int × α)) : Scatter α :=
  es.foldl (fun t e => t.insert e.1 e.2) (empty 8)

@[simp] theorem size_put (t : Scatter α) (k : Int) (x : α) : (t.put k x).size = t.size := by
  unfold put
  split <;> simp [size]

@[simp] theorem toList_empty (n : Nat) : (empty n : Scatter α).toList = [] := by
  simp [toList, empty, List.filterMap_replicate_of_none]

end Scatter

end Sieve
