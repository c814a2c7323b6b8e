import Mathlib.Tactic
import Sieve.Cursor.Boundary
import Sieve.Proofs.Outcome
import Sieve.Memory

/-!
# Values of one totally ordered type

Values of one type compare without failing, and their comparisons are those of a total order. A
direction follows this order or its opposite.

* `Value.ComparesAs`: how one value stands to another;
* `Value.ComparesBy`: a comparison function says how two values compare;
* `Value.TotallyOrdered`: the comparisons of some values are those of a total order;
* `Direction.turn`, `Direction.oriented`: what a direction orders by;
* `compareValues_ok`, `strictly_holds`, `atLeast_holds`: rows and cursors are compared by it.
-/

namespace Sieve

open Std (TransCmp OrientedCmp)

/-- A comparison by a value of the items. -/
theorem transCmp_on {α β : Type} (f : α → β) (cmp : β → β → Ordering) [h : TransCmp cmp] :
    TransCmp fun a b => cmp (f a) (f b) where
  eq_swap := h.eq_swap
  isLE_trans := h.isLE_trans

theorem Value.isNull_eq_false {v : Value} (h : v ≠ .null) : v.isNull = false := by
  cases v <;> first | rfl | exact absurd rfl h

/-- The first value stands to the second as an order says: equal to it, in front of it or behind
it. -/
structure Value.ComparesAs (o : Ordering) (a b : Value) : Prop where
  equal : a.equal b = .ok (o == .eq)
  precedes : ∀ orEqual, a.precedes orEqual b = .ok (ordered orEqual o)

/-- The function says whether two values are equal and which one stands in front. -/
structure Value.ComparesBy (cmp : Value → Value → Ordering) (a b : Value) : Prop where
  equal : a.equal b = .ok (cmp a b == .eq)
  precedes : ∀ orEqual, a.precedes orEqual b = .ok (ordered orEqual (cmp a b))

theorem Value.ComparesBy.as {cmp : Value → Value → Ordering} {a b : Value}
    (h : ComparesBy cmp a b) : ComparesAs (cmp a b) a b :=
  ⟨h.equal, h.precedes⟩

theorem Value.comparesAs_int (i j : Int) :
    ComparesAs (Ord.compare i j) (.int i) (.int j) where
  equal := by
    rw [equal_int]
    exact congrArg Except.ok (Bool.eq_iff_iff.2 (by simp))
  precedes orEqual := precedes_int orEqual i j

/-- The values compare as those of a total order do. -/
def Value.TotallyOrdered (S : Value → Prop) : Prop :=
  ∃ cmp, TransCmp cmp ∧ ∀ a b, S a → S b → ComparesBy cmp a b

/-- Some of the values are totally ordered if all are. -/
theorem Value.TotallyOrdered.mono {S S' : Value → Prop} (h : TotallyOrdered S)
    (hS : ∀ v, S' v → S v) : TotallyOrdered S' :=
  have ⟨cmp, htrans, hcmp⟩ := h
  ⟨cmp, htrans, fun a b ha hb => hcmp a b (hS a ha) (hS b hb)⟩

namespace Direction

variable {α : Type}

/-- The order of two values turned into a direction. -/
def turn (d : Direction) (o : Ordering) : Ordering :=
  if d.ascending then o else o.swap

/-- The order in a direction. -/
def oriented (d : Direction) (cmp : α → α → Ordering) : α → α → Ordering :=
  if d.ascending then cmp else fun a b => cmp b a

instance (d : Direction) (cmp : α → α → Ordering) [TransCmp cmp] : TransCmp (d.oriented cmp) := by
  unfold oriented
  split
  · infer_instance
  · exact TransCmp.opposite

/-- The reversed direction orders the other way round. -/
theorem oriented_reverse (d : Direction) (cmp : α → α → Ordering) (a b : α) :
    d.reverse.oriented cmp a b = d.oriented cmp b a := by
  cases d <;> rfl

end Direction

section

variable {cmp : Value → Value → Ordering} [TransCmp cmp] {d : Direction} {a b : Value}

theorem compareNulls_nonNull (ha : a ≠ .null) (hb : b ≠ .null) : compareNulls d a b = none := by
  simp [compareNulls, Value.isNull_eq_false ha, Value.isNull_eq_false hb]

/-- Null stands at the side that the direction gives it. -/
theorem compareValues_null_left (hb : b ≠ .null) :
    compareValues d .null b = .ok (if d.nullPlace = .first then .lt else .gt) := by
  have hnull : compareNulls d .null b = some (if d.nullPlace = .first then .lt else .gt) := by
    rw [compareNulls, Value.isNull_eq_false hb]
    rfl
  rw [compareValues, hnull]

theorem compareValues_null_right (ha : a ≠ .null) :
    compareValues d a .null = .ok (if d.nullPlace = .first then .gt else .lt) := by
  have hnull : compareNulls d a .null = some (if d.nullPlace = .first then .gt else .lt) := by
    rw [compareNulls, Value.isNull_eq_false ha]
    rfl
  rw [compareValues, hnull]

theorem oriented_eq_turn : d.oriented cmp a b = d.turn (cmp a b) := by
  have hswap : cmp b a = (cmp a b).swap := OrientedCmp.eq_swap
  cases hd : d.ascending <;> simp [Direction.oriented, Direction.turn, hd, hswap]

/-- Values that are not null are ordered in the direction. -/
theorem compareValues_of_comparesAs {o : Ordering} (h : Value.ComparesAs o a b) (ha : a ≠ .null)
    (hb : b ≠ .null) : compareValues d a b = .ok (d.turn o) := by
  simp only [compareValues, compareNulls_nonNull ha hb, h.equal, h.precedes, Outcome.ok_bind,
    Direction.turn]
  cases o <;> cases hd : d.ascending <;> simp [Value.ordered]

theorem strictly_of_comparesAs {o : Ordering} (h : Value.ComparesAs o a b)
    (h' : Value.ComparesAs o.swap b a) : d.strictly.holds a b = .ok (d.turn o == .gt) := by
  simp only [Direction.strictly, Direction.turn]
  cases hd : d.ascending
  · simp only [Bool.false_eq_true, if_false, Comparison.holds, h.precedes]
    cases o <;> rfl
  · simp only [if_true, Comparison.holds, h'.precedes]
    cases o <;> rfl

theorem atLeast_of_comparesAs {o : Ordering} (h : Value.ComparesAs o a b)
    (h' : Value.ComparesAs o.swap b a) : d.atLeast.holds a b = .ok (d.turn o != .lt) := by
  simp only [Direction.atLeast, Direction.turn]
  cases hd : d.ascending
  · simp only [Bool.false_eq_true, if_false, Comparison.holds, h.precedes]
    cases o <;> rfl
  · simp only [if_true, Comparison.holds, h'.precedes]
    cases o <;> rfl

/-- Values that are not null are ordered by the comparison function. -/
theorem compareValues_ok (h : Value.ComparesBy cmp a b) (ha : a ≠ .null) (hb : b ≠ .null) :
    compareValues d a b = .ok (d.oriented cmp a b) := by
  rw [oriented_eq_turn]
  exact compareValues_of_comparesAs h.as ha hb

theorem comparesAs_swap (h' : Value.ComparesBy cmp b a) :
    Value.ComparesAs (cmp a b).swap b a := by
  have hswap : cmp b a = (cmp a b).swap := OrientedCmp.eq_swap
  exact hswap ▸ h'.as

theorem strictly_holds (h : Value.ComparesBy cmp a b) (h' : Value.ComparesBy cmp b a) :
    d.strictly.holds a b = .ok (d.oriented cmp a b == .gt) := by
  rw [oriented_eq_turn]
  exact strictly_of_comparesAs h.as (comparesAs_swap h')

theorem atLeast_holds (h : Value.ComparesBy cmp a b) (h' : Value.ComparesBy cmp b a) :
    d.atLeast.holds a b = .ok (d.oriented cmp a b != .lt) := by
  rw [oriented_eq_turn]
  exact atLeast_of_comparesAs h.as (comparesAs_swap h')

end

end Sieve
