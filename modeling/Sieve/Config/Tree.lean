import Sieve.Value.Identity
/-!
# Trees of settings

Settings are maps nested in maps. A tree can be laid over another one, and a setting is found by
the keys on the way to it.

* `Settings.merge` lays a tree over another one: maps are merged, other values replace;
* `Settings.find?` follows a path of keys.

Main statements: `get?_put_self`, `merge_nil`, `find?_nil`.
-/

namespace Sieve

/-- A map of settings. -/
abbrev Settings := List (Value × Value)

namespace Settings

/-- The value of a key. -/
def get? (s : Settings) (key : Value) : Option Value :=
  match s with
  | [] => none
  | (k, v) :: r => if k = key then some v else get? r key

/-- The settings with the value of a key replaced, or with a new key at the end. -/
def put (s : Settings) (key value : Value) : Settings :=
  match s with
  | [] => [(key, value)]
  | (k, v) :: r => if k = key then (k, value) :: r else (k, v) :: put r key value

@[simp] theorem get?_put_self (s : Settings) (key value : Value) :
    get? (put s key value) key = some value := by
  induction s with
  | nil => simp [put, get?]
  | cons e r ih =>
    obtain ⟨k, v⟩ := e
    by_cases h : k = key <;> simp [put, get?, h, ih]

theorem get?_put_of_ne (s : Settings) {key other : Value} (value : Value) (h : other ≠ key) :
    get? (put s key value) other = get? s other := by
  induction s with
  | nil => simp [put, get?, Ne.symm h]
  | cons e r ih =>
    obtain ⟨k, v⟩ := e
    by_cases hk : k = key
    · simp [put, get?, hk, Ne.symm h]
    · simp [put, get?, hk, ih]

mutual

/-- The value that stands where a value is laid over another one. -/
def mergeValue (below : Option Value) : Value → Value
  | .map above =>
    match below with
    | some (.map base) => .map (merge base above)
    | _ => .map above
  | v => v

/-- The settings with others laid over them. -/
def merge (base : Settings) : List (Value × Value) → Settings
  | [] => base
  | (k, v) :: r => merge (put base k (mergeValue (get? base k) v)) r

end

@[simp] theorem merge_nil (base : Settings) : merge base [] = base := by
  simp [merge]

/-- The value at the end of a path of text keys; a null on the way ends the search. -/
def find? (v : Value) : List String → Option Value
  | [] => some v
  | k :: ks =>
    match v with
    | .map es =>
      match get? es (.text k) with
      | none | some .null => none
      | some w => find? w ks
    | _ => none

@[simp] theorem find?_nil (v : Value) : find? v [] = some v := rfl

end Settings

end Sieve
