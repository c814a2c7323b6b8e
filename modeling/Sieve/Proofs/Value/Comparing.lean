import Sieve.Proofs.Outcome
import Sieve.Value.Order

/-!
# What comparing values fails with

Two values may have no order, and a decimal that is not a number may refuse to be compared. Nothing
else goes wrong when values are compared, whatever lists, sets and maps they are.

* `Value.equal_fails`: only decimals refuse to be equal or not;
* `Value.Incomparable`, `Value.precedes_fails`: the reasons why values have no order.
-/

namespace Sieve

namespace Value

open Outcome

theorem numbersEqual_fails (x y : Decimal) : FailsOnly (· = .invalidOperation) (numbersEqual x y) := by
  unfold numbersEqual
  split
  · split
    · exact failsOnly_error rfl
    · exact failsOnly_ok _
  · exact failsOnly_ok _

mutual

theorem equal_fails (a b : Value) : FailsOnly (· = .invalidOperation) (a.equal b) := by
  unfold equal
  -- Lists, sets and maps are compared item by item, other values by themselves or as numbers.
  split
  case h_11 xs ys =>
    split
    · exact equalItems_fails xs ys
    · exact failsOnly_ok _
  case h_12 xs ys => exact equalItems_fails xs ys
  case h_13 xs ys =>
    split
    · exact equalSets_fails xs ys
    · exact failsOnly_ok _
  case h_14 es fs =>
    split
    · exact equalEntries_fails es fs
    · exact failsOnly_ok _
  case h_16 =>
    split
    · exact numbersEqual_fails _ _
    · exact failsOnly_ok _
  all_goals exact failsOnly_ok _

theorem equalItems_fails (xs ys : List Value) :
    FailsOnly (· = .invalidOperation) (equalItems xs ys) := by
  match xs, ys with
  | [], ys =>
    unfold equalItems
    exact failsOnly_ok _
  | _ :: _, [] =>
    unfold equalItems
    exact failsOnly_ok _
  | x :: xs, y :: ys =>
    unfold equalItems
    refine (equal_fails x y).bind fun same => ?_
    split
    · exact equalItems_fails xs ys
    · exact failsOnly_ok _

theorem equalSets_fails (xs ys : List Value) :
    FailsOnly (· = .invalidOperation) (equalSets xs ys) := by
  match xs with
  | [] =>
    unfold equalSets
    exact failsOnly_ok _
  | x :: xs =>
    unfold equalSets
    refine (failsOnly_anyM fun y _ => equal_fails x y).bind fun found => ?_
    split
    · exact equalSets_fails xs ys
    · exact failsOnly_ok _

theorem equalEntries_fails (es fs : List (Value × Value)) :
    FailsOnly (· = .invalidOperation) (equalEntries es fs) := by
  match es with
  | [] =>
    unfold equalEntries
    exact failsOnly_ok _
  | (k, v) :: es =>
    unfold equalEntries
    refine (failsOnly_findM? fun f _ => equal_fails k f.1).bind fun found => ?_
    split
    · refine (equal_fails v _).bind fun same => ?_
      split
      · exact equalEntries_fails es fs
      · exact failsOnly_ok _
    · exact failsOnly_ok _

end

/-- The reasons why two values have no order: their kinds, or a decimal that is not a number. -/
def Incomparable (e : Error) : Prop :=
  e = .mismatch ∨ e = .invalidOperation

theorem numbersOrdered_fails (orEqual isExact : Bool) (x y : Decimal) :
    FailsOnly Incomparable (numbersOrdered orEqual isExact x y) := by
  unfold numbersOrdered
  split
  · split
    · exact failsOnly_error (.inr rfl)
    · exact failsOnly_ok _
  · split <;> exact failsOnly_ok _

theorem orMismatch_fails (orEqual : Bool) (o : Option Ordering) :
    FailsOnly Incomparable (orMismatch orEqual o) := by
  cases o with
  | none => exact failsOnly_error (.inl rfl)
  | some o => exact failsOnly_ok _

mutual

theorem precedes_fails (orEqual : Bool) (a b : Value) :
    FailsOnly Incomparable (a.precedes orEqual b) := by
  unfold precedes
  split
  case h_8 => exact orMismatch_fails _ _
  case h_9 => exact orMismatch_fails _ _
  case h_11 xs ys => exact precedesItems_fails orEqual xs ys
  case h_12 xs ys => exact precedesItems_fails orEqual xs ys
  case h_13 xs ys =>
    exact FailsOnly.bind (fun e h => .inr (equalSets_fails xs ys e h)) fun _ => failsOnly_ok _
  case h_14 =>
    split
    · exact numbersOrdered_fails _ _ _ _
    · exact failsOnly_error (.inl rfl)
  all_goals exact failsOnly_ok _

theorem precedesItems_fails (orEqual : Bool) (xs ys : List Value) :
    FailsOnly Incomparable (precedesItems orEqual xs ys) := by
  match xs, ys with
  | [], ys =>
    unfold precedesItems
    exact failsOnly_ok _
  | _ :: _, [] =>
    unfold precedesItems
    exact failsOnly_ok _
  | x :: xs, y :: ys =>
    unfold precedesItems
    refine FailsOnly.bind (fun e h => .inr (equal_fails x y e h)) fun same => ?_
    split
    · exact precedesItems_fails orEqual xs ys
    · exact precedes_fails orEqual x y

end

end Value

end Sieve
