import Sieve.Value
/-!
# Identity of values

Two values are identical if they are built the same way. Identity is finer than equality, which
takes 1 for `true`, and coarser in one point: what is not a number is identical to itself.

* `Value.identical` decides identity.

Main statement: `identical_iff`.
-/

namespace Sieve

namespace Value

mutual

/-- Whether two values are built the same way. -/
def identical : Value → Value → Bool
  | null, null => true
  | bool a, bool b => a == b
  | int a, int b => a == b
  | float a, float b => a == b
  | decimal a, decimal b => a == b
  | text a, text b => a == b
  | broken a, broken b => a == b
  | bytes a, bytes b => a == b
  | date a, date b => a == b
  | time a, time b => a == b
  | timestamp a, timestamp b => a == b
  | uuid a, uuid b => a == b
  | list a, list b => identicalItems a b
  | tuple a, tuple b => identicalItems a b
  | set a, set b => identicalItems a b
  | map a, map b => identicalEntries a b
  | member a, member b => identical a b
  | object k a, object l b => k == l && identicalAttributes a b
  | zone a, zone b => a == b
  | feature k, feature l => k == l
  | _, _ => false

/-- Whether two lists of values are built the same way. -/
def identicalItems : List Value → List Value → Bool
  | [], [] => true
  | a :: as, b :: bs => identical a b && identicalItems as bs
  | _, _ => false

/-- Whether two lists of entries are built the same way. -/
def identicalEntries : List (Value × Value) → List (Value × Value) → Bool
  | [], [] => true
  | (k, a) :: as, (l, b) :: bs => identical k l && identical a b && identicalEntries as bs
  | _, _ => false

/-- Whether two lists of attributes are built the same way. -/
def identicalAttributes : List (String × Value) → List (String × Value) → Bool
  | [], [] => true
  | (k, a) :: as, (l, b) :: bs => k == l && identical a b && identicalAttributes as bs
  | _, _ => false

end

mutual

theorem identical_iff : ∀ a b : Value, identical a b = true ↔ a = b
  | null, b => by cases b <;> simp [identical]
  | bool _, b => by cases b <;> simp [identical]
  | int _, b => by cases b <;> simp [identical]
  | float _, b => by cases b <;> simp [identical]
  | decimal _, b => by cases b <;> simp [identical]
  | text _, b => by cases b <;> simp [identical]
  | broken _, b => by cases b <;> simp [identical]
  | bytes _, b => by cases b <;> simp [identical]
  | date _, b => by cases b <;> simp [identical]
  | time _, b => by cases b <;> simp [identical]
  | timestamp _, b => by cases b <;> simp [identical]
  | uuid _, b => by cases b <;> simp [identical]
  | list as, b => by cases b <;> simp [identical, identicalItems_iff as]
  | tuple as, b => by cases b <;> simp [identical, identicalItems_iff as]
  | set as, b => by cases b <;> simp [identical, identicalItems_iff as]
  | map as, b => by cases b <;> simp [identical, identicalEntries_iff as]
  | member a, b => by cases b <;> simp [identical, identical_iff a]
  | object _ as, b => by cases b <;> simp [identical, identicalAttributes_iff as]
  | zone _, b => by cases b <;> simp [identical]
  | feature _, b => by cases b <;> simp [identical]

theorem identicalItems_iff : ∀ as bs : List Value, identicalItems as bs = true ↔ as = bs
  | [], bs => by cases bs <;> simp [identicalItems]
  | a :: as, bs => by
    cases bs <;> simp [identicalItems, identical_iff a, identicalItems_iff as]

theorem identicalEntries_iff :
    ∀ as bs : List (Value × Value), identicalEntries as bs = true ↔ as = bs
  | [], bs => by cases bs <;> simp [identicalEntries]
  | _ :: _, [] => by simp [identicalEntries]
  | (k, a) :: as, (l, b) :: bs => by
    simp [identicalEntries, identical_iff k, identical_iff a, identicalEntries_iff as]

theorem identicalAttributes_iff :
    ∀ as bs : List (String × Value), identicalAttributes as bs = true ↔ as = bs
  | [], bs => by cases bs <;> simp [identicalAttributes]
  | _ :: _, [] => by simp [identicalAttributes]
  | (k, a) :: as, (l, b) :: bs => by
    simp [identicalAttributes, identical_iff a, identicalAttributes_iff as]

end

instance : DecidableEq Value := fun a b =>
  if h : identical a b = true then .isTrue ((identical_iff a b).mp h)
  else .isFalse fun e => h ((identical_iff a b).mpr e)

end Value

end Sieve
