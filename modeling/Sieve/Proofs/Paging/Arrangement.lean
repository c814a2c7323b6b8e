import Sieve.Proofs.Keyset.Window

/-!
# Arrangements of rows with nulls and ties

The values that rows are sorted by may be null, and rows may tie. There is still one arrangement of the
rows that meet the filters: the stable sort, with nulls where the direction of their field puts them.

* `arrangement`: the rows that meet the filters, in order;
* `Value.NullOr`: null, or a value with some property;
* `Request.Arranges`: the rows of a collection can be arranged by the ordering of a request;
* `Request.Arranges.sortRows_ok`: the program arranges them;
* `arrangement_sorted`: an arrangement is in order.
-/

namespace Sieve

open Std (TransCmp)

variable {schema : Option Schema} {aliases : Aliases} {o : Options} {p : Predicate}
  {keys : List SortKey} {rows : List Row} {r : Request}

/-! ### Nulls -/

/-- The null value, or a value with some property. -/
def Value.NullOr (S : Value → Prop) (v : Value) : Prop := v = .null ∨ S v

/-- The side on which a direction puts a value: nulls on one, all others on the other. -/
def Direction.side (d : Direction) (v : Value) : ℕ :=
  if v.isNull = (d.nullPlace == .first) then 0 else 1

/-- The order in a direction, with nulls on their side. Two nulls tie. -/
def Direction.withNulls (d : Direction) (cmp : Value → Value → Ordering) :
    Value → Value → Ordering :=
  compareLex (compareOn d.side) (d.oriented cmp)

instance (d : Direction) (cmp : Value → Value → Ordering) [TransCmp cmp] :
    TransCmp (d.withNulls cmp) :=
  inferInstanceAs (TransCmp (compareLex _ _))

/-- Values are compared by the order with nulls. -/
theorem compareValues_withNulls {cmp : Value → Value → Ordering} [TransCmp cmp]
    {S : Value → Prop} (hcmp : ∀ a b, S a → S b → Value.ComparesBy cmp a b) {a b : Value}
    (ha : a.NullOr S) (hb : b.NullOr S) (d : Direction) :
    compareValues d a b = .ok (d.withNulls cmp a b) := by
  have hself : d.oriented cmp .null .null = .eq := Std.ReflCmp.compare_self
  by_cases hna : a = .null <;> by_cases hnb : b = .null
  · subst hna hnb
    simp only [compareValues, compareNulls, Direction.withNulls, compareLex, compareOn, hself]
    simp [Value.isNull]
  · -- One null alone: the sides decide.
    subst hna
    rw [compareValues_null_left hnb, Direction.withNulls, compareLex, compareOn, Direction.side,
      Direction.side, Value.isNull_eq_false hnb]
    cases d.nullPlace <;> rfl
  · subst hnb
    rw [compareValues_null_right hna, Direction.withNulls, compareLex, compareOn, Direction.side,
      Direction.side, Value.isNull_eq_false hna]
    cases d.nullPlace <;> rfl
  · have hside : compareOn d.side a b = .eq := by
      simp [compareOn, Direction.side, Value.isNull_eq_false hna, Value.isNull_eq_false hnb]
    rw [compareValues_ok (hcmp a b (ha.resolve_left hna) (hb.resolve_left hnb)) hna hnb,
      Direction.withNulls, compareLex, hside]
    rfl

/-! ### Rows -/

/-- The value of a key in a row; null if there is none. -/
def SortKey.value (k : SortKey) (aliases : Aliases) (row : Value) : Value :=
  match k.ref.read aliases row with
  | .ok v => v
  | .error _ => .null

/-- The values of a key in some rows are null or of one total order. -/
def SortKey.Orders (k : SortKey) (aliases : Aliases) (rows : List Row) : Prop :=
  ∃ S, Value.TotallyOrdered S ∧
    ∀ row ∈ rows, ∃ v, k.ref.read aliases row.data = .ok v ∧ v.NullOr S

/-- The order of rows by one key. -/
def SortKey.order (k : SortKey) (aliases : Aliases) (cmp : Value → Value → Ordering) (a b : Row) :
    Ordering :=
  k.direction.withNulls cmp (k.value aliases a.data) (k.value aliases b.data)

instance (k : SortKey) (cmp : Value → Value → Ordering) [TransCmp cmp] :
    TransCmp (k.order aliases cmp) :=
  transCmp_on (fun row : Row => k.value aliases row.data) (k.direction.withNulls cmp)

/-- Rows are compared by a total preorder. -/
theorem exists_compareRows (h : ∀ k ∈ keys, k.Orders aliases rows) :
    ∃ cmp : Row → Row → Ordering, TransCmp cmp ∧ ∀ a ∈ rows, ∀ b ∈ rows,
      compareRows aliases keys a.data b.data = .ok (cmp a b) := by
  induction keys with
  | nil =>
    refine ⟨fun _ _ => .eq, ?_, fun a _ b _ => rfl⟩
    exact { eq_swap := rfl, isLE_trans := fun _ _ => rfl }
  | cons k ks ih =>
    obtain ⟨S, ⟨cmp, hcmp, hS⟩, hread⟩ := h k (by simp)
    obtain ⟨rest, hrest, hrows⟩ := ih fun k' hk' => h k' (by simp [hk'])
    refine ⟨compareLex (k.order aliases cmp) rest, inferInstance, fun a ha b hb => ?_⟩
    obtain ⟨v, hv, hvS⟩ := hread a ha
    obtain ⟨w, hw, hwS⟩ := hread b hb
    have hhead : compareValues k.direction v w = .ok (k.order aliases cmp a b) := by
      rw [compareValues_withNulls hS hvS hwS, SortKey.order, SortKey.value, SortKey.value, hv, hw]
    simp only [compareRows, hv, hw, Outcome.ok_bind, hhead, compareLex]
    cases k.order aliases cmp a b with
    | eq => exact hrows a ha b hb
    | lt | gt => rfl

/-- Whether a row does not come after another one. -/
def Row.notAfter (aliases : Aliases) (keys : List SortKey) (a b : Row) : Bool :=
  match compareRows aliases keys a.data b.data with
  | .ok o => o.isLE
  | .error _ => false

/-- The rows that meet the filters, in order; rows that tie are in the order of the collection. -/
def arrangement (aliases : Aliases) (keys : List SortKey) (p : Predicate) (rows : List Row) :
    List Row :=
  (matching aliases p rows).mergeSort (Row.notAfter aliases keys)

theorem mergeSort_congr {α : Type} {le le' : α → α → Bool} {xs : List α}
    (h : ∀ a ∈ xs, ∀ b ∈ xs, le a b = le' a b) : xs.mergeSort le = xs.mergeSort le' := by
  have hmap := List.map_mergeSort (f := id) h
  simpa using hmap

/-- The filters are answered on all rows, and the values that the matching ones are sorted by are null
or of one total order for each key. -/
structure Request.Arranges (r : Request) (schema : Option Schema) (o : Options) (aliases : Aliases)
    (p : Predicate) (keys : List SortKey) (rows : List Row) : Prop where
  predicate : (r.predicate schema o).outcome = .ok p
  answers : ∀ row ∈ rows, ∃ t, p.evaluate aliases row.data = .ok t
  found : r.sort.keys schema = .ok keys
  orders : ∀ k ∈ keys, k.Orders aliases (matching aliases p rows)

namespace Request.Arranges

variable (h : r.Arranges schema o aliases p keys rows)
include h

/-- The matching rows are compared by a total preorder. -/
theorem exists_order : ∃ cmp : Row → Row → Ordering, TransCmp cmp ∧
    (∀ a ∈ matching aliases p rows, ∀ b ∈ matching aliases p rows,
      compareRows aliases keys a.data b.data = .ok (cmp a b)) ∧
    arrangement aliases keys p rows =
      (matching aliases p rows).mergeSort fun a b => (cmp a b).isLE := by
  obtain ⟨cmp, hcmp, hrows⟩ := exists_compareRows h.orders
  refine ⟨cmp, hcmp, hrows, mergeSort_congr fun a ha b hb => ?_⟩
  rw [Row.notAfter, hrows a ha b hb]

/-- **The program arranges the rows.** -/
theorem sortRows_ok : sortRows aliases keys (matching aliases p rows) =
    .ok (arrangement aliases keys p rows) := by
  obtain ⟨cmp, _, hrows, harranged⟩ := h.exists_order
  rw [harranged]
  exact sortRows_of_order hrows

/-- No row of the arrangement comes before one in front of it. -/
theorem arrangement_sorted : (arrangement aliases keys p rows).Pairwise fun a b =>
    ∃ c, compareRows aliases keys a.data b.data = .ok c ∧ c ≠ .gt := by
  obtain ⟨cmp, _, hrows, harranged⟩ := h.exists_order
  have hmem : ∀ row ∈ arrangement aliases keys p rows, row ∈ matching aliases p rows :=
    fun row hrow => (List.mergeSort_perm _ _).mem_iff.1 hrow
  have hsorted : (arrangement aliases keys p rows).Pairwise fun a b => (cmp a b).isLE := by
    rw [harranged]
    exact List.pairwise_mergeSort (fun _ _ _ => TransCmp.isLE_trans) Insertion.isLE_total _
  refine hsorted.imp_of_mem fun {a b} ha hb hab => ?_
  refine ⟨cmp a b, hrows a (hmem a ha) b (hmem b hb), fun hgt => ?_⟩
  rw [hgt] at hab
  cases hab

end Request.Arranges

end Sieve
