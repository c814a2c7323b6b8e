import Sieve.Proofs.Keyset.Ranking
import Sieve.Proofs.Keyset.Strict
import Sieve.Proofs.Sorting

/-!
# Fetching ranked rows

The rows that meet the filters have one arrangement. A plan for the rows after a pivot fetches the
next ones of this arrangement, a plan for the other side fetches one of the others.

* `matching`: the rows that meet the filters, `Ranking.arranged` puts them in order;
* `sortRows_of_order`: what sorting by a total preorder gives;
* `Ranking.Covers`: the filters are answered on all rows, and the ordering tells matching rows
  apart;
* `Ranking.Pivots`: a row, in the collection or not, that the rows can be compared with;
* `Ranking.fetch_first`, `Ranking.fetch_after`, `Ranking.fetch_notAfter`: what plans fetch.
-/

namespace Sieve

open Std (TransCmp)

namespace Predicate

/-- Whether the predicate is true of a row. -/
def holds (aliases : Aliases) (p : Predicate) (row : Value) : Bool :=
  match p.evaluate aliases row with
  | .ok t => t == some true
  | .error _ => false

variable {aliases : Aliases} {p : Predicate} {row : Value} {t : Truth}

theorem holds_of_evaluate (h : p.evaluate aliases row = .ok t) :
    p.holds aliases row = (t == some true) := by
  rw [holds, h]

/-- Rows are selected by what a predicate that is no constant answers. -/
theorem selects_of_proper (hp : ∀ v, p ≠ .oddConst v) :
    p.selects aliases row = (· == some true) <$> p.evaluate aliases row := by
  have hanswer : p.answer aliases row =
      (fun t => (t.map Value.bool).getD .null) <$> p.evaluate aliases row := by
    cases p with
    | oddConst v => exact absurd rfl (hp v)
    | _ => simp only [answer, map_eq_pure_bind]
  rw [selects, hanswer]
  cases p.evaluate aliases row with
  | error e => rfl
  | ok t =>
    cases t with
    | none => simp
    | some b => cases b <;> simp

theorem selects_ok (hp : ∀ v, p ≠ .oddConst v) (h : p.evaluate aliases row = .ok t) :
    p.selects aliases row = .ok (p.holds aliases row) := by
  rw [selects_of_proper hp, h, holds_of_evaluate h]
  rfl

end Predicate

/-- The rows that a predicate is true of. -/
def matching (aliases : Aliases) (p : Predicate) (rows : List Row) : List Row :=
  rows.filter (p.holds aliases ·.data)

/-- Filters that are answered on all rows select those that they are true of. -/
theorem selectRows_ok {aliases : Aliases} {p : Predicate} {rows : List Row}
    (hp : ∀ v, p ≠ .oddConst v) (h : ∀ row ∈ rows, ∃ t, p.evaluate aliases row.data = .ok t) :
    selectRows aliases p rows = .ok (matching aliases p rows) := by
  refine Outcome.filterM_ok fun row hrow => ?_
  obtain ⟨t, ht⟩ := h row hrow
  exact Predicate.selects_ok hp ht

/-- Rows that are compared by a total preorder are sorted by it, and ties keep their order. -/
theorem sortRows_of_order {aliases : Aliases} {keys : List SortKey} {cmp : Row → Row → Ordering}
    [TransCmp cmp] {xs : List Row}
    (h : ∀ a ∈ xs, ∀ b ∈ xs, compareRows aliases keys a.data b.data = .ok (cmp a b)) :
    sortRows aliases keys xs = .ok (xs.mergeSort fun a b => (cmp a b).isLE) := by
  rw [sortRows]
  split
  · rename_i hempty
    -- Without keys no two rows are told apart.
    obtain rfl := List.isEmpty_iff.1 hempty
    refine congrArg Except.ok (List.mergeSort_of_pairwise ?_).symm
    refine List.pairwise_of_forall_mem_list fun a ha b hb => ?_
    rw [← Except.ok.inj (h a ha b hb)]
    rfl
  · refine Insertion.sortBy_eq fun a ha b hb => ?_
    rw [h a ha b hb]
    rfl

namespace Ranking

variable (K : Ranking) {aliases : Aliases} {order : SortOrder} {p : Predicate} {rows : List Row}
  {pivot : Value}

/-- The comparison of rows of a collection. -/
def rowOrder (order : SortOrder) (a b : Row) : Ordering :=
  K.compare order a.data b.data

instance (order : SortOrder) : TransCmp (K.rowOrder order) :=
  transCmp_on Row.data (K.compare order)

/-- The matching rows in order. -/
def arranged (aliases : Aliases) (order : SortOrder) (p : Predicate) (rows : List Row) : List Row :=
  Strict.sorted (K.rowOrder order) (matching aliases p rows)

/-- Whether a row comes after the pivot. -/
def isAfter (order : SortOrder) (pivot : Value) (row : Row) : Bool :=
  K.compare order row.data pivot == .gt

/-- The filters are answered on all rows, and the ordering tells the matching ones apart by values
that are not null. -/
structure Covers (aliases : Aliases) (order : SortOrder) (p : Predicate) (rows : List Row) : Prop where
  nonempty : order ≠ []
  proper : ∀ v, p ≠ .oddConst v
  answers : ∀ row ∈ rows, ∃ t, p.evaluate aliases row.data = .ok t
  reads : ∀ row ∈ rows, K.Reads aliases order row.data
  compares : ∀ a ∈ rows, ∀ b ∈ rows, K.Compares order a.data b.data
  full : ∀ row ∈ matching aliases p rows, K.Full order row.data
  tieFree : Strict.TieFree (K.rowOrder order) (matching aliases p rows)

/-- The rows can be compared with the pivot. -/
structure Pivots (order : SortOrder) (rows : List Row) (pivot : Value) : Prop where
  full : K.Full order pivot
  left : ∀ row ∈ rows, K.Compares order row.data pivot
  right : ∀ row ∈ rows, K.Compares order pivot row.data

variable {K}

theorem Covers.reverse (h : K.Covers aliases order p rows) :
    K.Covers aliases order.reverse p rows where
  nonempty := by
    have := h.nonempty
    simpa [SortOrder.reverse] using this
  proper := h.proper
  answers := h.answers
  reads row hrow := reads_reverse.2 (h.reads row hrow)
  compares a ha b hb := compares_reverse.2 (h.compares a ha b hb)
  full row hrow := full_reverse.2 (h.full row hrow)
  tieFree := by
    refine h.tieFree.imp fun {a b} hab hba => hab ?_
    have hswap : K.rowOrder order a b = (K.rowOrder order b a).swap := Std.OrientedCmp.eq_swap
    rw [rowOrder, compare_reverse] at hba
    rw [hswap, rowOrder, hba]
    rfl

theorem mem_of_mem_matching {row : Row} (h : row ∈ matching aliases p rows) : row ∈ rows :=
  (List.mem_filter.1 h).1

theorem mem_of_mem_arranged {row : Row} (h : row ∈ K.arranged aliases order p rows) :
    row ∈ matching aliases p rows :=
  Strict.mem_sorted.1 h

namespace Covers

variable (h : K.Covers aliases order p rows)
include h

theorem ascending : Strict.Ascending (K.rowOrder order) (K.arranged aliases order p rows) :=
  Strict.sorted_ascending h.tieFree

/-- A matching row is a pivot. -/
theorem pivots {row : Row} (hrow : row ∈ matching aliases p rows) :
    K.Pivots order rows row.data where
  full := h.full row hrow
  left a ha := h.compares a ha row (mem_of_mem_matching hrow)
  right b hb := h.compares row (mem_of_mem_matching hrow) b hb

/-! ### Selecting -/

theorem selectRows_ok : selectRows aliases p rows = .ok (matching aliases p rows) :=
  Sieve.selectRows_ok h.proper h.answers

/-- A predicate beside the filters counts for the rows that meet them. -/
theorem selectRows_and {q : Predicate} {f : Row → Bool} (hq : ∀ v, q ≠ .oddConst v)
    (hf : ∀ row ∈ rows, ∃ t, q.evaluate aliases row.data = .ok t ∧
      (row ∈ matching aliases p rows → t = some (f row))) :
    selectRows aliases (p.and q) rows = .ok ((matching aliases p rows).filter f) := by
  rw [matching, List.filter_filter]
  refine Outcome.filterM_ok fun row hrow => ?_
  obtain ⟨t, ht⟩ := h.answers row hrow
  obtain ⟨u, hu, huf⟩ := hf row hrow
  have hand : (p.and q).evaluate aliases row.data = .ok (.all [t, u]) :=
    Predicate.evaluate_all_two ht hu h.proper hq
  rw [Predicate.selects_ok (by simp [Predicate.and]) hand, Predicate.holds_of_evaluate hand,
    Predicate.holds_of_evaluate ht]
  -- Only where the filters hold the other predicate has a say.
  by_cases hhold : t = some true
  · rw [huf (List.mem_filter.2 ⟨hrow, by rw [Predicate.holds_of_evaluate ht, hhold]; rfl⟩), hhold]
    cases f row <;> rfl
  · have hall : Truth.all [t, u] ≠ some true := fun hall =>
      hhold ((Truth.all_eq_true_iff _).1 hall t (by simp))
    have hleft : (Truth.all [t, u] == some true) = false := by simpa using hall
    have hright : (t == some true) = false := by simpa using hhold
    rw [hleft, hright, Bool.and_false]

theorem edge_answers (hp : K.Pivots order rows pivot) : ∀ row ∈ rows,
    ∃ t, (K.edge pivot order).evaluate aliases row.data = .ok t ∧
      (row ∈ matching aliases p rows → t = some (K.isAfter order pivot row)) := by
  intro row hrow
  obtain ⟨t, ht, hfull⟩ := edge_answer (h.reads row hrow) hp.full (hp.left row hrow)
    (hp.right row hrow) h.nonempty
  exact ⟨t, ht, fun hm => hfull (h.full row hm)⟩

theorem edge_proper : ∀ v, K.edge pivot order ≠ .oddConst v := by
  obtain ⟨t, ts, rfl⟩ := List.exists_cons_of_ne_nil h.nonempty
  exact edge_ne_oddConst t ts

/-! ### Sorting -/

theorem compareRows_ok {a b : Row} (ha : a ∈ matching aliases p rows)
    (hb : b ∈ matching aliases p rows) :
    compareRows aliases (order.map K.key) a.data b.data = .ok (K.rowOrder order a b) :=
  Ranking.compareRows_ok (h.reads a (mem_of_mem_matching ha)) (h.reads b (mem_of_mem_matching hb))
    (h.full a ha) (h.full b hb)
    (h.compares a (mem_of_mem_matching ha) b (mem_of_mem_matching hb))

theorem sortRows_ok {xs : List Row} (hxs : ∀ row ∈ xs, row ∈ matching aliases p rows) :
    sortRows aliases (order.map K.key) xs = .ok (Strict.sorted (K.rowOrder order) xs) :=
  sortRows_of_order fun a ha b hb => h.compareRows_ok (hxs a ha) (hxs b hb)

end Covers

/-! ### Windows -/

theorem window_ofNat {α : Type} (xs : List α) (n : Nat) :
    window xs (.int n) .null = .ok (xs.take n) := by
  have hstop : (Value.int 0).plus (.int n) = .ok (.int n) := by simp
  simp only [window, windowEnd, Value.truthy, Value.isNull, Bool.false_eq_true, if_false, hstop,
    Outcome.ok_bind, Value.position?_int, Option.getD_some, Outcome.pure_eq_ok]
  have hslice := slice_ofNat xs 0 n
  simpa using hslice

namespace Covers

variable (h : K.Covers aliases order p rows)
include h

/-! ### Plans -/

/-- Without a cursor the first rows are fetched. -/
theorem fetch_first (n : Nat) (backward : Bool) :
    fetch aliases rows ⟨p, order.map K.key, .int n, .null, backward⟩ =
      .ok ((K.arranged aliases order p rows).take n) := by
  rw [fetch]
  simp only [h.selectRows_ok, Outcome.ok_bind]
  rw [h.sortRows_ok fun row hrow => hrow]
  exact window_ofNat _ n

/-- **With a cursor the rows after its row are fetched.** -/
theorem fetch_after (hp : K.Pivots order rows pivot) (n : Nat) (backward : Bool) :
    fetch aliases rows ⟨p.and (K.edge pivot order), order.map K.key, .int n, .null, backward⟩ =
      .ok (((K.arranged aliases order p rows).filter (K.isAfter order pivot)).take n) := by
  rw [fetch]
  simp only [h.selectRows_and h.edge_proper (h.edge_answers hp), Outcome.ok_bind]
  rw [h.sortRows_ok fun row hrow => (List.mem_filter.1 hrow).1, arranged,
    Strict.filter_sorted h.tieFree]
  exact window_ofNat _ n

/-- The lookback fetches a matching row that does not come after the row of the cursor. -/
theorem fetch_notAfter (hp : K.Pivots order rows pivot) :
    fetch aliases rows ⟨p.and (.not (K.edge pivot order)), [], .int 1, .null, false⟩ =
      .ok (((matching aliases p rows).filter (!K.isAfter order pivot ·)).take 1) := by
  have hnot : ∀ row ∈ rows,
      ∃ t, (Predicate.not (K.edge pivot order)).evaluate aliases row.data = .ok t ∧
        (row ∈ matching aliases p rows → t = some (!K.isAfter order pivot row)) := by
    intro row hrow
    obtain ⟨t, ht, hm⟩ := h.edge_answers hp row hrow
    refine ⟨t.not, by rw [Predicate.evaluate, ht]; rfl, fun hmem => ?_⟩
    rw [hm hmem]
    rfl
  rw [fetch]
  simp only [h.selectRows_and (by simp) hnot, Outcome.ok_bind]
  exact window_ofNat _ 1

end Covers

end Ranking

end Sieve
