import Sieve.Scatter
import Sieve.Value.Arithmetic
import Sieve.Value.Text
/-!
# The items of a value

Many operations take a value apart: a list or tuple into its items, a map into its keys, a text
into its characters, a list of pairs into the entries of a map.

* `items`, `searchTerms` and `entries` take a value apart;
* `putEntry` makes the entries of a map, `setOf` a set.

Main statements: `items_list`, `searchTerms_list`, `entries_map`.
-/

namespace Sieve

namespace Value

/-- The items of a value; values that have none are an error. -/
def items : Value → Except Error (List Value)
  | list xs | tuple xs | set xs => .ok xs
  | map es => .ok (es.map (·.1))
  | text s => .ok (s.toList.map fun c => .text (String.singleton c))
  | broken t => .ok ((RawText.broken t).singles.map ofRaw)
  | bytes b => .ok (b.map fun o => .int o.toNat)
  | _ => .error .mismatch

@[simp] theorem items_list (xs : List Value) : items (list xs) = .ok xs := rfl

@[simp] theorem items_tuple (xs : List Value) : items (tuple xs) = .ok xs := rfl

/-- The terms of a search: the words of a text, the items of a collection as texts. -/
def searchTerms : Value → Except Error (List String)
  | text s => .ok (Text.words s)
  | broken t => .ok (Text.words (broken t).render)
  | v => do (← items v).mapM written

@[simp] theorem searchTerms_text (s : String) : searchTerms (text s) = .ok (Text.words s) := rfl

@[simp] theorem searchTerms_list (xs : List Value) :
    searchTerms (list xs) = xs.mapM written := rfl

/-! ### Entries -/

/-- Whether two values are the same key. -/
def sameKey (a b : Value) : Bool :=
  match equal a b with
  | .ok r => r
  | .error _ => false

/-- The entries of a map with the value of a key replaced, or with a new key at the end. -/
def putEntry (es : List (Value × Value)) (k v : Value) : List (Value × Value) :=
  match es with
  | [] => [(k, v)]
  | (l, w) :: r => if sameKey l k then (l, v) :: r else (l, w) :: putEntry r k v

/-- The entries of a map from pairs; of two pairs with one key the later value counts, at the place
of the earlier one. Keys that can change are an error. -/
def entriesOfPairs (pairs : List (Value × Value)) : Except Error (List (Value × Value)) :=
  if pairs.all fun e => e.1.isKey then .ok (pairs.foldl (fun es e => putEntry es e.1 e.2) [])
  else .error .mismatch

/-- The pair that a value of two items is. -/
def pairOf (v : Value) : Except Error (Value × Value) := do
  match ← v.items with
  | [k, w] => return (k, w)
  | _ => throw .malformed

/-- The entries of a map, or those that the pairs of a list make. -/
def entries : Value → Except Error (List (Value × Value))
  | map es => .ok es
  | v => do entriesOfPairs (← (← v.items).mapM pairOf)

@[simp] theorem entries_map (es : List (Value × Value)) : entries (map es) = .ok es := rfl

/-- The items without those that are equal to an earlier one. -/
def distinct (xs : List Value) : List Value :=
  xs.foldl (fun a x => if a.any (sameKey · x) then a else a ++ [x]) []

/-- The set of some items. Integers are kept in the order of a scatter table, other items in the
order in which they were added. -/
def setOf (xs : List Value) : Value :=
  let items := distinct xs
  match items.mapM count? with
  | none => set items
  | some is => set (Scatter.ofList (is.zip items)).toList

/-! ### Flags -/

/-- The truth value that asks for emptiness: a truth value or its text in any case, with blanks
around it. Anything else does not ask. -/
def emptyFlag? : Value → Option Bool
  | bool b => some b
  | text s =>
    let t := (Text.trim Text.isBlank s.toList).map Char.toLower
    if t = "true".toList then some true
    else if t = "false".toList then some false
    else none
  | _ => none

end Value

end Sieve
