import Sieve.Proofs.Cursor.Boundary
import Sieve.Proofs.Value.TotalOrder
import Sieve.Cursor.Pivot

/-!
# Rankings of rows

An ordering by fields whose values are totally ordered ranks rows from the first to the last. The
program works with it in three ways: it sorts rows, it bounds them by a cursor, and it turns the
ordering round. All three follow one comparison of rows.

* `Ranking`: where fields are found, which values rows have there and how these compare;
* `Ranking.compare`: the comparison of rows by an ordering;
* `Ranking.compareRows_ok`: rows are sorted by it;
* `Ranking.boundary_ok`, `Ranking.edge_answer`: a cursor bounds the rows that come after it;
* `Ranking.compare_reverse`: the reversed ordering compares the other way round.
-/

namespace Sieve

open Std (TransCmp OrientedCmp)

/-- The field is found on its own in a row: on the entity, or on a joined entity with a binding. -/
def Field.IsDirect : Field → Prop
  | .plain .. => True
  | .join _ binding .. => binding.isSome = true
  | .isAlias _ | .composite .. | .custom .. => False

theorem Field.IsDirect.isColumn {f : Field} (h : f.IsDirect) : f.IsColumn := by
  cases f with
  | plain => exact .inl rfl
  | join => exact .inr rfl
  | isAlias | composite | custom => exact h.elim

/-- How rows are ranked. -/
structure Ranking where
  /-- Where a field is found. -/
  ref : String → FieldRef
  /-- The value of a field in a row. -/
  value : String → Value → Value
  /-- How the values of a field compare. -/
  cmp : String → Value → Value → Ordering
  /-- The values of a field are totally ordered. -/
  total : ∀ n, TransCmp (cmp n)

namespace Ranking

instance (K : Ranking) (n : String) : TransCmp (K.cmp n) := K.total n

variable (K : Ranking)

/-- The comparison of two rows by an ordering, the most significant field first. -/
def compare : SortOrder → Value → Value → Ordering
  | [] => fun _ _ => .eq
  | t :: ts => compareLex
      (fun a b => t.direction.oriented (K.cmp t.field) (K.value t.field a) (K.value t.field b))
      (compare ts)

instance transCmp_compare (order : SortOrder) : TransCmp (K.compare order) := by
  induction order with
  | nil =>
    show TransCmp fun _ _ => Ordering.eq
    exact { eq_swap := rfl, isLE_trans := fun _ _ => rfl }
  | cons t ts ih =>
    have := transCmp_on (K.value t.field) (t.direction.oriented (K.cmp t.field))
    exact inferInstanceAs (TransCmp (compareLex _ (K.compare ts)))

/-- The reversed ordering compares the other way round. -/
theorem compare_reverse (order : SortOrder) (a b : Value) :
    K.compare order.reverse a b = K.compare order b a := by
  induction order with
  | nil => rfl
  | cons t ts ih =>
    show compareLex _ (K.compare (SortOrder.reverse ts)) a b = compareLex _ (K.compare ts) b a
    simp only [compareLex, Direction.oriented_reverse, ih]

/-! ### Rows -/

/-- The fields of the ordering are found where the ranking says. -/
def Locates (schema : Option Schema) (order : SortOrder) : Prop :=
  ∀ t ∈ order, ∃ f, resolveField schema t.field = .ok f ∧ f.IsDirect ∧
    f.ref? = some (K.ref t.field)

/-- The row has the values of the ranking. -/
def Reads (aliases : Aliases) (order : SortOrder) (row : Value) : Prop :=
  ∀ t ∈ order, (K.ref t.field).read aliases row = .ok (K.value t.field row)

/-- No value of the row is null. -/
def Full (order : SortOrder) (row : Value) : Prop :=
  ∀ t ∈ order, K.value t.field row ≠ .null

/-- The values of two rows compare as the ranking says, where they are not null. -/
def Compares (order : SortOrder) (a b : Value) : Prop :=
  ∀ t ∈ order, K.value t.field a ≠ .null → K.value t.field b ≠ .null →
    Value.ComparesBy (K.cmp t.field) (K.value t.field a) (K.value t.field b)

variable {K} {schema : Option Schema} {aliases : Aliases} {order : SortOrder} {a b : Value}

/-- The key of a term. -/
def key (K : Ranking) (t : SortTerm) : SortKey := ⟨K.ref t.field, t.direction⟩

theorem reads_reverse : K.Reads aliases order.reverse a ↔ K.Reads aliases order a := by
  simp [Reads, SortOrder.reverse]

theorem full_reverse : K.Full order.reverse a ↔ K.Full order a := by
  simp [Full, SortOrder.reverse]

theorem compares_reverse : K.Compares order.reverse a b ↔ K.Compares order a b := by
  simp [Compares, SortOrder.reverse]

/-- The keys of an ordering by fields that are found on their own. -/
theorem keys_ok (h : K.Locates schema order) : order.keys schema = .ok (order.map K.key) := by
  induction order with
  | nil => cases schema <;> rfl
  | cons t ts ih =>
    obtain ⟨f, hf, _, href⟩ := h t (by simp)
    exact SortOrder.keys_cons ⟨f, hf, href, rfl⟩ (ih fun u hu => h u (by simp [hu]))

/-- **Rows are sorted by the comparison of the ranking.** -/
theorem compareRows_ok (ha : K.Reads aliases order a) (hb : K.Reads aliases order b)
    (hfa : K.Full order a) (hfb : K.Full order b) (hab : K.Compares order a b) :
    compareRows aliases (order.map K.key) a b = .ok (K.compare order a b) := by
  induction order with
  | nil => rfl
  | cons t ts ih =>
    have htail := ih (fun u hu => ha u (by simp [hu])) (fun u hu => hb u (by simp [hu]))
      (fun u hu => hfa u (by simp [hu])) (fun u hu => hfb u (by simp [hu]))
      (fun u hu => hab u (by simp [hu]))
    have hna := hfa t (by simp)
    have hnb := hfb t (by simp)
    have hhead := compareValues_ok (d := t.direction) (hab t (by simp) hna hnb) hna hnb
    simp only [List.map_cons, compareRows, key, ha t (by simp), hb t (by simp), Outcome.ok_bind,
      hhead, compare, compareLex]
    cases t.direction.oriented (K.cmp t.field) (K.value t.field a) (K.value t.field b) with
    | eq => exact htail
    | lt | gt => rfl

/-! ### Boundaries -/

/-- The predicate that a row comes after another one. -/
def edge (K : Ranking) (pivot : Value) : SortOrder → Predicate
  | [] => .const true
  | t :: ts => Cursor.bound (K.ref t.field) t.direction (K.value t.field pivot)
      (if ts.isEmpty then none else some (edge K pivot ts))

/-- The boundary of the cursor of a row. -/
theorem boundary_ok {c : Cursor} {pivot : Value} (h : K.Locates schema order)
    (hc : ∀ t ∈ order, c.bound? t.field = some (K.value t.field pivot)) :
    c.boundary schema order = ⟨[], .ok (K.edge pivot order)⟩ := by
  induction order with
  | nil => rfl
  | cons t ts ih =>
    have htail := ih (fun u hu => h u (by simp [hu])) (fun u hu => hc u (by simp [hu]))
    obtain ⟨f, hf, hdirect, href⟩ := h t (by simp)
    rw [Cursor.boundary_kept hf hdirect.isColumn href (hc t (by simp)), htail]
    rfl

theorem edge_ne_oddConst {pivot : Value} (t : SortTerm) (ts : SortOrder) (v : Value) :
    K.edge pivot (t :: ts) ≠ .oddConst v :=
  Cursor.bound_ne_oddConst _ _ _

theorem evaluate_compare_ok {r : FieldRef} {c : Comparison} {row x v : Value} {b : Bool}
    (hr : r.read aliases row = .ok x) (hb : x ≠ .null → c.holds x v = .ok b) :
    Predicate.evaluate aliases row (.compare r c v) =
      .ok (if x.isNull then none else some b) := by
  simp only [Predicate.evaluate, Predicate.unlessNull, hr, Outcome.ok_bind]
  by_cases hx : x = .null
  · rw [hx]
    rfl
  · simp [Value.isNull_eq_false hx, hb hx]

/-- **The edge of a row holds for the rows that come after it.** Where a row has null in place of
a value, nothing is known. -/
theorem edge_answer {row pivot : Value} (hr : K.Reads aliases order row)
    (hp : K.Full order pivot) (hrp : K.Compares order row pivot)
    (hpr : K.Compares order pivot row) (hne : order ≠ []) :
    ∃ t, (K.edge pivot order).evaluate aliases row = .ok t ∧
      (K.Full order row → t = some (K.compare order row pivot == .gt)) := by
  induction order with
  | nil => exact absurd rfl hne
  | cons t ts ih =>
    have hread := hr t (by simp)
    have hpivot := hp t (by simp)
    have hstrict := evaluate_compare_ok (v := K.value t.field pivot) hread fun hx =>
      strictly_holds (d := t.direction) (hrp t (by simp) hx hpivot) (hpr t (by simp) hpivot hx)
    have hleast := evaluate_compare_ok (v := K.value t.field pivot) hread fun hx =>
      atLeast_holds (d := t.direction) (hrp t (by simp) hx hpivot) (hpr t (by simp) hpivot hx)
    cases ts with
    | nil =>
      refine ⟨_, hstrict, fun hfull => ?_⟩
      rw [Value.isNull_eq_false (hfull t (by simp))]
      simp [compare, compareLex]
    | cons u us =>
      obtain ⟨inner, hinner, hfullInner⟩ := ih (fun w hw => hr w (by simp [hw]))
        (fun w hw => hp w (by simp [hw])) (fun w hw => hrp w (by simp [hw]))
        (fun w hw => hpr w (by simp [hw])) (by simp)
      have hany := Predicate.evaluate_any_two hstrict hinner (by simp) (edge_ne_oddConst u us)
      refine ⟨_, Predicate.evaluate_all_two hleast hany (by simp) (by simp), fun hfull => ?_⟩
      rw [Value.isNull_eq_false (hfull t (by simp)), hfullInner fun w hw => hfull w (by simp [hw])]
      show _ = some (compareLex _ (K.compare (u :: us)) row pivot == .gt)
      -- The first field decides, or on a tie the other fields do.
      simp only [compareLex]
      cases t.direction.oriented (K.cmp t.field) (K.value t.field row) (K.value t.field pivot) <;>
        cases K.compare (u :: us) row pivot <;> rfl

end Ranking

end Sieve
