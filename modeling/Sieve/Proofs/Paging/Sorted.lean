import Sieve.Proofs.Paging.Page

/-!
# Rows that are fetched are sorted

The values that rows are sorted by may be null, and rows may tie. The comparison of rows is a total
preorder all the same: the first key on which two rows do not tie decides, with nulls where its
direction puts them. What a plan fetches is a window on the stable sort of the rows whose predicate is
true.

* `Direction.nullOrder`: how null stands to other values;
* `SortKey.Ties`, `compareRows_append`: rows that tie on some keys are compared by the others;
* `RowOrder`: what is asked of an order of rows, `exists_rowOrder`: the comparison of rows has it;
* `fetch_sorted`: what a plan fetches.
-/

namespace Sieve

open Std (TransCmp)

variable {aliases : Aliases} {keys pre post : List SortKey} {rows : List Row} {k : SortKey}
  {d : Direction} {a b v w : Value}

/-! ### The place of nulls -/

/-- How null stands to a value that is not null: in front or behind as the direction says; without a
word in the direction, null counts as the greatest value. -/
def Direction.nullOrder (d : Direction) : Ordering :=
  match d.nulls with
  | some .first => .lt
  | some .last => .gt
  | none => d.turn .gt

theorem Direction.nullOrder_eq (d : Direction) :
    d.nullOrder = if d.nullPlace = .first then .lt else .gt := by
  cases d <;> rfl

theorem compareValues_null (h : w ≠ .null) : compareValues d .null w = .ok d.nullOrder := by
  rw [compareValues_null_left h, Direction.nullOrder_eq]

/-! ### Rows that tie -/

/-- Two values tie: both are null, or neither is and they are equal. -/
def Value.Ties (v w : Value) : Prop :=
  v = .null ∧ w = .null ∨ v ≠ .null ∧ w ≠ .null ∧ v.equal w = .ok true

theorem compareValues_eq_iff : compareValues d v w = .ok .eq ↔ v.Ties w := by
  by_cases hv : v = .null <;> by_cases hw : w = .null
  · subst hv hw
    simp [Value.Ties, compareValues, compareNulls, Value.isNull]
  · subst hv
    rw [compareValues_null_left hw]
    cases d.nullPlace <;> simp [Value.Ties, hw]
  · subst hw
    rw [compareValues_null_right hv]
    cases d.nullPlace <;> simp [Value.Ties, hv]
  · simp only [Value.Ties, compareValues, compareNulls_nonNull hv hw, hv, hw, false_and, false_or,
      ne_eq, not_false_eq_true, true_and]
    cases v.equal w with
    | error e => simp
    | ok same =>
      cases same with
      | true => simp
      | false =>
        cases v.precedes false w with
        | error e => simp
        | ok less => cases less <;> cases d.ascending <;> simp

/-- Two rows tie on a key: the values that it reads tie. -/
def SortKey.Ties (k : SortKey) (aliases : Aliases) (a b : Value) : Prop :=
  ∃ v w, k.ref.read aliases a = .ok v ∧ k.ref.read aliases b = .ok w ∧ v.Ties w

/-- Rows that tie on some keys are compared by the keys behind them. -/
theorem compareRows_append (h : ∀ k ∈ pre, k.Ties aliases a b) :
    compareRows aliases (pre ++ post) a b = compareRows aliases post a b := by
  induction pre with
  | nil => rfl
  | cons k ks ih =>
    obtain ⟨v, w, hv, hw, htie⟩ := h k (by simp)
    rw [List.cons_append, compareRows, hv, Outcome.ok_bind, hw, Outcome.ok_bind,
      compareValues_eq_iff.2 htie, Outcome.ok_bind]
    exact ih fun k' hk' => h k' (by simp [hk'])

/-- Rows tie exactly if they tie on every key. -/
theorem compareRows_eq_iff : compareRows aliases keys a b = .ok .eq ↔
    ∀ k ∈ keys, k.Ties aliases a b := by
  induction keys with
  | nil => simp [compareRows]
  | cons k ks ih =>
    rw [List.forall_mem_cons, ← ih, compareRows]
    constructor
    · intro h
      obtain ⟨v, hv, h⟩ := Outcome.bind_eq_ok_iff.1 h
      obtain ⟨w, hw, h⟩ := Outcome.bind_eq_ok_iff.1 h
      obtain ⟨c, hc, h⟩ := Outcome.bind_eq_ok_iff.1 h
      cases c with
      | eq => exact ⟨⟨v, w, hv, hw, compareValues_eq_iff.1 hc⟩, h⟩
      | lt | gt => cases h
    · rintro ⟨⟨v, w, hv, hw, htie⟩, h⟩
      rw [hv, Outcome.ok_bind, hw, Outcome.ok_bind, compareValues_eq_iff.2 htie, Outcome.ok_bind]
      exact h

/-- The first key on which two rows do not tie decides. -/
theorem compareRows_of_first (h : ∀ k' ∈ pre, k'.Ties aliases a b)
    (hv : k.ref.read aliases a = .ok v) (hw : k.ref.read aliases b = .ok w) {c : Ordering}
    (hc : compareValues k.direction v w = .ok c) (hne : c ≠ .eq) :
    compareRows aliases (pre ++ k :: post) a b = .ok c := by
  rw [compareRows_append h, compareRows, hv, Outcome.ok_bind, hw, Outcome.ok_bind, hc,
    Outcome.ok_bind]
  cases c with
  | eq => exact absurd rfl hne
  | lt | gt => rfl

/-! ### The order of rows -/

/-- The rows are compared by a total preorder. Rows tie if they tie on all keys; else the first key on
which they do not tie decides: null stands where its direction puts it, and the lesser one of two
values that are not null in front or behind, as the direction says. -/
structure RowOrder (aliases : Aliases) (keys : List SortKey) (rows : List Row)
    (cmp : Row → Row → Ordering) : Prop where
  preorder : TransCmp cmp
  compares : ∀ a ∈ rows, ∀ b ∈ rows, compareRows aliases keys a.data b.data = .ok (cmp a b)
  ties : ∀ a ∈ rows, ∀ b ∈ rows, cmp a b = .eq ↔ ∀ k ∈ keys, k.Ties aliases a.data b.data
  nulls : ∀ pre k post, keys = pre ++ k :: post → ∀ a ∈ rows, ∀ b ∈ rows,
    (∀ k' ∈ pre, k'.Ties aliases a.data b.data) → k.ref.read aliases a.data = .ok .null →
      ∀ w ≠ .null, k.ref.read aliases b.data = .ok w → cmp a b = k.direction.nullOrder
  values : ∀ pre k post, keys = pre ++ k :: post → ∀ a ∈ rows, ∀ b ∈ rows,
    (∀ k' ∈ pre, k'.Ties aliases a.data b.data) → ∀ v ≠ .null, k.ref.read aliases a.data = .ok v →
      ∀ w ≠ .null, k.ref.read aliases b.data = .ok w →
        v.precedes false w = .ok true → cmp a b = k.direction.turn .lt

/-- Values of a total order are compared as they precede each other. -/
theorem SortKey.Orders.compareValues_of_precedes (h : k.Orders aliases rows) {x y : Row}
    (hx : x ∈ rows) (hy : y ∈ rows) (hv : k.ref.read aliases x.data = .ok v) (hnv : v ≠ .null)
    (hw : k.ref.read aliases y.data = .ok w) (hnw : w ≠ .null)
    (hlt : v.precedes false w = .ok true) (d : Direction) :
    compareValues d v w = .ok (d.turn .lt) := by
  obtain ⟨S, ⟨cmp, _, hS⟩, hread⟩ := h
  have typed : ∀ {row v}, row ∈ rows → k.ref.read aliases row.data = .ok v → v ≠ .null → S v := by
    intro row v hrow hv hnv
    obtain ⟨v', hv', hor⟩ := hread row hrow
    rw [hv] at hv'
    cases hv'
    exact hor.resolve_left hnv
  have hvw := hS v w (typed hx hv hnv) (typed hy hw hnw)
  have hcmp : cmp v w = .lt := by
    have hordered := hvw.precedes false
    rw [hlt] at hordered
    cases hc : cmp v w <;> rw [hc] at hordered <;> first | rfl | cases hordered
  exact compareValues_of_comparesAs (hcmp ▸ hvw.as) hnv hnw

/-- **The comparison of rows** is a total preorder with nulls in their places. -/
theorem exists_rowOrder (h : ∀ k ∈ keys, k.Orders aliases rows) :
    ∃ cmp, RowOrder aliases keys rows cmp := by
  obtain ⟨cmp, hcmp, hrows⟩ := exists_compareRows h
  refine ⟨cmp, hcmp, hrows, fun a ha b hb => ?_, ?_, ?_⟩
  · rw [← compareRows_eq_iff, hrows a ha b hb, Except.ok.injEq]
  · rintro pre k post rfl a ha b hb htie hnull w hnw hw
    have hne : k.direction.nullOrder ≠ .eq := by cases k.direction <;> decide
    refine Except.ok.inj ((hrows a ha b hb).symm.trans ?_)
    exact compareRows_of_first htie hnull hw (compareValues_null hnw) hne
  · rintro pre k post rfl a ha b hb htie v hnv hv w hnw hw hlt
    have hne : k.direction.turn .lt ≠ .eq := by cases k.direction <;> decide
    refine Except.ok.inj ((hrows a ha b hb).symm.trans ?_)
    exact compareRows_of_first htie hv hw
      ((h k (by simp)).compareValues_of_precedes ha hb hv hnv hw hnw hlt k.direction) hne

/-! ### Windows -/

/-- The number of rows to take or to skip as a parameter of a plan; null if there is none. -/
def Value.ofCount (n : Option ℕ) : Value := n.elim .null fun n => .int n

/-- Without an end a slice holds everything from its start on. -/
theorem slice_to_end {α : Type} (xs : List α) (start : ℕ) : slice xs start none = xs.drop start := by
  have hclamp : clampIndex xs.length start = min start xs.length := if_neg (by omega)
  simp only [slice, hclamp, Option.map_none, Option.getD_none]
  rw [List.take_of_length_le (by rw [List.length_drop])]
  rcases Nat.le_total start xs.length with h | h
  · rw [Nat.min_eq_left h]
  · rw [Nat.min_eq_right h, List.drop_length, List.drop_eq_nil_of_le h]

/-- A window without an end. -/
theorem window_to_end {α : Type} (xs : List α) (n : ℕ) :
    window xs .null (.int n) = .ok (xs.drop n) := by
  rw [window, windowStart_nat]
  exact congrArg Except.ok (slice_to_end xs n)

/-- Behind the rows to skip, as many as the limit says, or all. -/
theorem window_ofCount {α : Type} (xs : List α) (limit offset : Option ℕ) :
    window xs (.ofCount limit) (.ofCount offset) =
      .ok ((xs.drop (offset.getD 0)).take (limit.getD xs.length)) := by
  have hall : ∀ n, (xs.drop n).take xs.length = xs.drop n := fun n =>
    List.take_of_length_le (by rw [List.length_drop]; omega)
  cases offset <;> cases limit <;> simp only [Option.getD_some, Option.getD_none, hall]
  · exact window_null xs
  · exact Ranking.window_ofNat xs _
  · exact window_to_end xs _
  · exact window_nat xs _ _

/-! ### What a plan fetches -/

/-- The rows whose predicate is true. -/
theorem selectRows_of_answer {p : Predicate} {t : Row → Value}
    (h : ∀ row ∈ rows, p.answer aliases row.data = .ok (t row)) :
    selectRows aliases p rows = .ok (rows.filter (t · == .bool true)) := by
  refine Outcome.filterM_ok fun row hrow => ?_
  rw [Predicate.selects, h row hrow]
  rfl

/-- Rows that are compared by a total preorder are fetched from their stable sort. -/
theorem RowOrder.fetch_eq {cmp : Row → Row → Ordering} (h : RowOrder aliases keys rows cmp)
    {p : Predicate} {t : Row → Value} (limit offset : Option ℕ) (backward : Bool)
    (hp : ∀ row ∈ rows, p.answer aliases row.data = .ok (t row)) {rows' : List Row}
    (hrows : ∀ row ∈ rows', row ∈ rows) :
    fetch aliases rows' ⟨p, keys, .ofCount limit, .ofCount offset, backward⟩ =
      .ok (((Strict.sorted cmp (rows'.filter (t · == .bool true))).drop (offset.getD 0)).take
        (limit.getD (Strict.sorted cmp (rows'.filter (t · == .bool true))).length)) := by
  have := h.preorder
  have hselect := selectRows_of_answer fun row hrow => hp row (hrows row hrow)
  have hsort : sortRows aliases keys (rows'.filter (t · == .bool true)) =
      .ok (Strict.sorted cmp (rows'.filter (t · == .bool true))) :=
    sortRows_of_order fun a ha b hb => h.compares a (hrows a (List.mem_of_mem_filter ha)) b
      (hrows b (List.mem_of_mem_filter hb))
  rw [fetch, hselect, Outcome.ok_bind, hsort, Outcome.ok_bind]
  exact window_ofCount _ limit offset

/-- **What a plan fetches** is a window on the stable sort of the rows whose predicate is true. Where
no two of these tie, the collection may come in any order. -/
theorem fetch_sorted {p : Predicate} {t : Row → Value} (limit offset : Option ℕ) (backward : Bool)
    (hp : ∀ row ∈ rows, p.answer aliases row.data = .ok (t row))
    (hkeys : ∀ k ∈ keys, k.Orders aliases rows) :
    ∃ cmp sorted, RowOrder aliases keys rows cmp ∧
      Insertion.Arranged cmp (rows.filter (t · == .bool true)) sorted ∧
      fetch aliases rows ⟨p, keys, .ofCount limit, .ofCount offset, backward⟩ =
        .ok ((sorted.drop (offset.getD 0)).take (limit.getD sorted.length)) ∧
      ((rows.filter (t · == .bool true)).Pairwise (fun a b => cmp a b ≠ .eq) →
        ∀ rows' : List Row, rows'.Perm rows →
          fetch aliases rows' ⟨p, keys, .ofCount limit, .ofCount offset, backward⟩ =
            fetch aliases rows ⟨p, keys, .ofCount limit, .ofCount offset, backward⟩) := by
  obtain ⟨cmp, horder⟩ := exists_rowOrder hkeys
  have := horder.preorder
  have hfetch := horder.fetch_eq limit offset backward hp fun _ hrow => hrow
  refine ⟨cmp, _, horder, .mergeSort _, hfetch, fun hfree rows' hperm => ?_⟩
  -- Without ties there is one sorted list of the same rows.
  have hperm' := hperm.filter (t · == .bool true)
  have hsame : Strict.sorted cmp (rows'.filter (t · == .bool true)) =
      Strict.sorted cmp (rows.filter (t · == .bool true)) :=
    Strict.eq_sorted (Strict.sorted_ascending (Strict.TieFree.perm hfree hperm'.symm))
      ((Strict.sorted_perm _).trans hperm')
  rw [horder.fetch_eq limit offset backward hp fun _ hrow => hperm.mem_iff.1 hrow, hfetch, hsame]

/-! ### Rows with ranks -/

/-- A row with a rank, which may be null, and a number. -/
def scoredRow (rank : Value) (id : Int) : Value :=
  .record [("rank", rank), ("id", .int id)]

/-- Rows two of which tie on the rank, and one that a filter by rank leaves out. -/
def scoredRows : List Row :=
  Row.collection [scoredRow (.int 2) 1, scoredRow .null 2, scoredRow (.int 1) 3, scoredRow .null 4]

/-- No rank, or one above the first. -/
def unrankedOrBehind : Predicate :=
  .any [.isNull (.plain "rank"), .compare (.plain "rank") .gt (.int 1)]

/-- By rank, then from the greatest number down. -/
def byRankThenNumber : List SortKey :=
  [⟨.plain "rank", .asc⟩, ⟨.plain "id", .desc⟩]

/-- Two of the rows that a filter by rank leaves, behind the first one. -/
theorem fetch_sorted_scoredRows :
    (∀ row ∈ scoredRows, unrankedOrBehind.answer [] row.data =
      .ok (.bool (row.position != 2))) ∧
    (∀ k ∈ byRankThenNumber, k.Orders [] scoredRows) ∧
    ∃ cmp sorted, RowOrder [] byRankThenNumber scoredRows cmp ∧
      Insertion.Arranged cmp
        (scoredRows.filter fun row => Value.bool (row.position != 2) == .bool true) sorted ∧
      fetch [] scoredRows ⟨unrankedOrBehind, byRankThenNumber, .ofCount (some 2), .ofCount (some 1),
        false⟩ = .ok ((sorted.drop 1).take 2) ∧
      ((scoredRows.filter fun row => Value.bool (row.position != 2) == .bool true).Pairwise
          (fun a b => cmp a b ≠ .eq) →
        ∀ rows' : List Row, rows'.Perm scoredRows →
          fetch [] rows' ⟨unrankedOrBehind, byRankThenNumber, .ofCount (some 2), .ofCount (some 1),
              false⟩ =
            fetch [] scoredRows ⟨unrankedOrBehind, byRankThenNumber, .ofCount (some 2),
              .ofCount (some 1), false⟩) := by
  have hall : ∀ {P : Row → Prop}, (∀ row ∈ scoredRows, P row) ↔
      P ⟨0, scoredRow (.int 2) 1⟩ ∧ P ⟨1, scoredRow .null 2⟩ ∧ P ⟨2, scoredRow (.int 1) 3⟩ ∧
        P ⟨3, scoredRow .null 4⟩ := by
    simp [scoredRows, Row.collection, List.zipIdx]
  have hanswer : ∀ row ∈ scoredRows, unrankedOrBehind.answer [] row.data =
      .ok (.bool (row.position != 2)) := hall.2 ⟨rfl, rfl, rfl, rfl⟩
  have horders : ∀ k ∈ byRankThenNumber, k.Orders [] scoredRows := by
    simp only [byRankThenNumber, List.forall_mem_cons]
    refine ⟨⟨Kind.integer.Has, Kind.totallyOrdered .integer, hall.2 ⟨?_, ?_, ?_, ?_⟩⟩,
      ⟨Kind.integer.Has, Kind.totallyOrdered .integer, hall.2 ⟨?_, ?_, ?_, ?_⟩⟩, by simp⟩
    · exact ⟨_, rfl, .inr (.integer 2)⟩
    · exact ⟨_, rfl, .inl rfl⟩
    · exact ⟨_, rfl, .inr (.integer 1)⟩
    · exact ⟨_, rfl, .inl rfl⟩
    · exact ⟨_, rfl, .inr (.integer 1)⟩
    · exact ⟨_, rfl, .inr (.integer 2)⟩
    · exact ⟨_, rfl, .inr (.integer 3)⟩
    · exact ⟨_, rfl, .inr (.integer 4)⟩
  exact ⟨hanswer, horders, fetch_sorted (some 2) (some 1) false hanswer horders⟩

example : fetch [] scoredRows ⟨unrankedOrBehind, byRankThenNumber, .int 2, .int 1, false⟩ =
    .ok [⟨3, scoredRow .null 4⟩, ⟨1, scoredRow .null 2⟩] := by cbv

end Sieve
