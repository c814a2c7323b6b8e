import Sieve.Proofs.Keyset.Fetch

/-!
# Rows with null at the boundary of a cursor

Sorting puts null at one end of the values, as the direction says. A boundary knows nothing of that:
its comparisons with null are unknown. So a row that is sorted behind a cursor only because of its null
is not selected.

* `columnValue`: the value that a row is compared by;
* `Cursor.Meets`: a cursor with the values of a pivot row, and a row that can be compared with it;
* `Cursor.LosesAt`: what makes a boundary lose a row;
* `Cursor.boundary_selects_iff`: boundaries select the rows behind the pivot, without the lost ones;
* `Cursor.boundary_loses_null`: a row behind the pivot that is lost.
-/

namespace Sieve

/-- The value that a row is compared by in a column. -/
def columnValue (schema : Option Schema) (aliases : Aliases) (name : String) (row : Value) :
    Except Error Value := do
  (← (← resolveField schema name).ref).read aliases row

namespace Cursor

section

variable (schema : Option Schema) (aliases : Aliases) (row pivot : Value)

/-- The cursor holds the value of the pivot in the column of the term, which is not null. The value
of the row is null or compares with it. -/
structure Meets (c : Cursor) (t : SortTerm) : Prop where
  column : ∃ f, resolveField schema t.field = .ok f ∧ f.IsColumn
  compared : ∃ v x, c.bound? t.field = some v ∧ columnValue schema aliases t.field pivot = .ok v ∧
    columnValue schema aliases t.field row = .ok x ∧
    (x ≠ .null → ∃ o, Value.ComparesAs o x v ∧ Value.ComparesAs o.swap v x)

/-- The row has null in the column of a term that puts nulls last. -/
def NullLast (t : SortTerm) : Prop :=
  columnValue schema aliases t.field row = .ok .null ∧ t.direction.nullPlace = .last

/-- The row and the pivot have equal values in the column of the term. -/
def Ties (t : SortTerm) : Prop :=
  ∃ x v, columnValue schema aliases t.field row = .ok x ∧
    columnValue schema aliases t.field pivot = .ok v ∧ x.equal v = .ok true

/-- Up to some term the row ties with the pivot, and there it has null, which is put last. -/
def LosesAt : SortOrder → Prop
  | [] => False
  | t :: rest =>
    NullLast schema aliases row t ∨ Ties schema aliases row pivot t ∧ LosesAt rest

end

variable {schema : Option Schema} {aliases : Aliases} {row pivot : Value} {c : Cursor}
  {t : SortTerm} {order : SortOrder}

/-! ### One term -/

/-- The answers about one term: its column, the values there, and how these are ordered. -/
structure Answers (schema : Option Schema) (aliases : Aliases) (row pivot : Value) (t : SortTerm)
    (r : FieldRef) (v x : Value) (o : Ordering) : Prop where
  ofRow : r.read aliases row = .ok x
  ofPivot : r.read aliases pivot = .ok v
  compared : compareValues t.direction x v = .ok o
  beyond : Predicate.evaluate aliases row (.compare r t.direction.strictly v) =
    .ok (if x.isNull then none else some (o == .gt))
  notBefore : Predicate.evaluate aliases row (.compare r t.direction.atLeast v) =
    .ok (if x.isNull then none else some (o != .lt))
  tie : Ties schema aliases row pivot t ↔ o = .eq
  null : NullLast schema aliases row t ↔ x.isNull = true ∧ o = .gt
  apart : x.isNull = true → o ≠ .eq

theorem columnValue_eq {name : String} {f : Field} {r : FieldRef}
    (hf : resolveField schema name = .ok f) (hr : f.ref? = some r) (row : Value) :
    columnValue schema aliases name row = r.read aliases row := by
  simp [columnValue, hf, Field.ref, hr]

/-- Null equals nothing else. -/
theorem equal_null_left {v : Value} (hv : v ≠ .null) : Value.null.equal v = .ok false := by
  cases v with
  | null => exact absurd rfl hv
  | _ => simp [Value.equal, Value.number?]

theorem Direction.turn_eq_eq_iff {d : Direction} {o : Ordering} : d.turn o = .eq ↔ o = .eq := by
  unfold Direction.turn
  cases o <;> cases d.ascending <;> decide

theorem Meets.answers (h : Meets schema aliases row pivot c t) :
    ∃ f r v x o, resolveField schema t.field = .ok f ∧ f.IsColumn ∧ f.ref? = some r ∧
      c.bound? t.field = some v ∧ Answers schema aliases row pivot t r v x o := by
  obtain ⟨f, hf, hcol⟩ := h.column
  obtain ⟨r, hr⟩ := hcol.exists_ref
  obtain ⟨v, x, hv, hpivot, hrow, hcompares⟩ := h.compared
  have hv0 : v ≠ .null := bound?_ne_null hv
  have hreadRow : r.read aliases row = .ok x := (columnValue_eq hf hr row).symm.trans hrow
  have hreadPivot : r.read aliases pivot = .ok v := (columnValue_eq hf hr pivot).symm.trans hpivot
  have htie : Ties schema aliases row pivot t ↔ x.equal v = .ok true := by
    constructor
    · rintro ⟨x', v', hx', hv', heq⟩
      cases hrow.symm.trans hx'
      cases hpivot.symm.trans hv'
      exact heq
    · exact fun heq => ⟨x, v, hrow, hpivot, heq⟩
  have hnullLast : NullLast schema aliases row t ↔ x = .null ∧ t.direction.nullPlace = .last := by
    simp [NullLast, hrow]
  refine ⟨f, r, v, x, ?_⟩
  by_cases hx : x = .null
  · -- The place of nulls decides how the rows are ordered, but no comparison is answered.
    subst hx
    refine ⟨_, hf, hcol, hr, hv, hreadRow, hreadPivot, compareValues_null_left hv0,
      Ranking.evaluate_compare_ok hreadRow (absurd rfl),
      Ranking.evaluate_compare_ok hreadRow (absurd rfl), ?_, ?_, ?_⟩
    · rw [htie, equal_null_left hv0]
      split <;> simp
    · rw [hnullLast]
      cases t.direction.nullPlace <;> simp [Value.isNull]
    · intro _
      split <;> simp
  · obtain ⟨o, hxv, hvx⟩ := hcompares hx
    refine ⟨_, hf, hcol, hr, hv, hreadRow, hreadPivot, compareValues_of_comparesAs hxv hx hv0,
      Ranking.evaluate_compare_ok hreadRow fun _ => strictly_of_comparesAs hxv hvx,
      Ranking.evaluate_compare_ok hreadRow fun _ => atLeast_of_comparesAs hxv hvx, ?_, ?_, ?_⟩
    · rw [htie, hxv.equal, Direction.turn_eq_eq_iff]
      cases o <;> simp
    · rw [hnullLast, Value.isNull_eq_false hx]
      simp [hx]
    · rw [Value.isNull_eq_false hx]
      simp

/-! ### All terms -/

/-- The boundary of an ordering, its answer on the row, and how the row is sorted. -/
structure Judges (schema : Option Schema) (aliases : Aliases) (row pivot : Value) (c : Cursor)
    (order : SortOrder) (p : Predicate) (keys : List SortKey) (answer : Truth) (o : Ordering) :
    Prop where
  boundary : (c.boundary schema order).outcome = .ok p
  proper : ∀ w, p ≠ .oddConst w
  sorted : order.keys schema = .ok keys
  evaluated : p.evaluate aliases row = .ok answer
  compared : compareRows aliases keys row pivot = .ok o
  selects : answer = some true ↔ o = .gt ∧ ¬LosesAt schema aliases row pivot order
  loses : LosesAt schema aliases row pivot order → o = .gt

/-- A row is beyond a bound if the first term decides so, or the other terms do on a tie. -/
theorem all_bound_eq_true_iff (isNull : Bool) (o : Ordering) (inner : Truth) :
    Truth.all [if isNull then none else some (o != .lt),
        .any [if isNull then none else some (o == .gt), inner]] = some true ↔
      isNull = false ∧ (o = .gt ∨ o = .eq ∧ inner = some true) := by
  rcases inner with _ | _ | _ <;> cases isNull <;> cases o <;> decide

theorem Meets.judges_cons {rest : SortOrder} (h : Meets schema aliases row pivot c t)
    (hrest : rest ≠ [] → ∃ p keys answer o,
      Judges schema aliases row pivot c rest p keys answer o) :
    ∃ p keys answer o, Judges schema aliases row pivot c (t :: rest) p keys answer o := by
  obtain ⟨f, r, v, x, o, hf, hcol, hr, hv, ha⟩ := h.answers
  have hfound : t.FoundAt schema ⟨r, t.direction⟩ := ⟨f, hf, hr, rfl⟩
  have hkept : c.boundary schema (t :: rest) = _ := boundary_kept hf hcol hr hv
  have hloses : LosesAt schema aliases row pivot (t :: rest) ↔
      (x.isNull = true ∧ o = .gt) ∨ (o = .eq ∧ LosesAt schema aliases row pivot rest) := by
    rw [LosesAt, ha.null, ha.tie]
  have hrows : ∀ ks, compareRows aliases (⟨r, t.direction⟩ :: ks) row pivot =
      if o = .eq then compareRows aliases ks row pivot else .ok o := by
    intro ks
    simp only [compareRows, ha.ofRow, ha.ofPivot, ha.compared, Outcome.ok_bind]
    cases o <;> rfl
  rcases rest with _ | ⟨u, us⟩
  · have hkeys : SortOrder.keys schema [] = .ok [] := by cases schema <;> rfl
    refine ⟨bound r t.direction v none, [⟨r, t.direction⟩], _, o, ?_, bound_ne_oddConst _ _,
      SortOrder.keys_cons hfound hkeys, ha.beyond, ?_, ?_, ?_⟩
    · rw [hkept]
      rfl
    · rw [hrows]
      cases o <;> rfl
    · rw [hloses]
      cases hx : x.isNull <;> cases o <;> simp [LosesAt]
    · rw [hloses]
      rintro (⟨_, ho⟩ | ⟨_, hfalse⟩)
      · exact ho
      · exact hfalse.elim
  · obtain ⟨p, keys, answer, o', hp⟩ := hrest (by simp)
    have hany := Predicate.evaluate_any_two ha.beyond hp.evaluated (by simp) hp.proper
    refine ⟨bound r t.direction v (some p), ⟨r, t.direction⟩ :: keys, _, if o = .eq then o' else o,
      ?_, bound_ne_oddConst _ _, SortOrder.keys_cons hfound hp.sorted,
      Predicate.evaluate_all_two ha.notBefore hany (by simp) (by simp), ?_, ?_, ?_⟩
    · rw [hkept, Traced.bind_outcome, hp.boundary]
      rfl
    · rw [hrows, hp.compared]
      cases o <;> rfl
    · rw [hloses, all_bound_eq_true_iff, hp.selects]
      cases hx : x.isNull with
      | true =>
        have hapart : o ≠ .eq := ha.apart hx
        cases o <;> simp at hapart ⊢
      | false => cases o <;> simp
    · rw [hloses]
      rintro (⟨_, rfl⟩ | ⟨rfl, hlost⟩)
      · rfl
      · exact hp.loses hlost

theorem exists_judges (hne : order ≠ []) (h : ∀ t ∈ order, Meets schema aliases row pivot c t) :
    ∃ p keys answer o, Judges schema aliases row pivot c order p keys answer o := by
  induction order with
  | nil => exact absurd rfl hne
  | cons t rest ih =>
    have hlater : ∀ u ∈ rest, Meets schema aliases row pivot c u := fun u hu => h u (by simp [hu])
    exact (h t (by simp)).judges_cons fun hrest => ih hrest hlater

/-! ### Selected and lost rows -/

/-- **A boundary selects the rows behind its pivot, but for those it loses.** A row is lost if it ties
with the pivot up to a term where it has null, which the direction puts last. -/
theorem boundary_selects_iff (hne : order ≠ [])
    (h : ∀ t ∈ order, Meets schema aliases row pivot c t) :
    ∃ p keys selected o, (c.boundary schema order).outcome = .ok p ∧
      order.keys schema = .ok keys ∧ p.selects aliases row = .ok selected ∧
      compareRows aliases keys row pivot = .ok o ∧
      (selected = true ↔ o = .gt ∧ ¬LosesAt schema aliases row pivot order) ∧
      (LosesAt schema aliases row pivot order → o = .gt) := by
  obtain ⟨p, keys, answer, o, hp⟩ := exists_judges hne h
  refine ⟨p, keys, _, o, hp.boundary, hp.sorted, Predicate.selects_ok hp.proper hp.evaluated,
    hp.compared, ?_, hp.loses⟩
  rw [Predicate.holds_of_evaluate hp.evaluated, ← hp.selects]
  simp

/-- A row with null is selected where a column before the null puts it behind the pivot. -/
theorem boundary_selects_pairRow :
    byPair ≠ [] ∧
    (∀ t ∈ byPair, Meets none [] (pairRow (.int 2) .null) (pairRow (.int 1) (.int 1))
      [("a", .int 1), ("b", .int 1)] t) ∧
    ∃ p, (boundary none [("a", .int 1), ("b", .int 1)] byPair).outcome = .ok p ∧
      p.selects [] (pairRow (.int 2) .null) = .ok true := by
  have hmeets : ∀ t ∈ byPair, Meets none [] (pairRow (.int 2) .null) (pairRow (.int 1) (.int 1))
      [("a", .int 1), ("b", .int 1)] t := by
    intro t ht
    rcases List.mem_cons.1 ht with rfl | ht
    · exact ⟨⟨_, rfl, .inl rfl⟩, .int 1, .int 2, rfl, rfl, rfl, fun _ =>
        ⟨_, Value.comparesAs_int 2 1, Value.comparesAs_int 1 2⟩⟩
    · rw [List.mem_singleton.1 ht]
      exact ⟨⟨_, rfl, .inl rfl⟩, .int 1, .null, rfl, rfl, rfl, absurd rfl⟩
  obtain ⟨p, keys, selected, o, hp, hkeys, hselected, hcompared, hiff, -⟩ :=
    boundary_selects_iff (by simp [byPair]) hmeets
  have hapart : (Value.int 2).equal (.int 1) = .ok false := by simp
  have hbehind : o = .gt := by
    have hkeys' : byPair.keys none = .ok [⟨.of "a" none none [] false, .asc⟩,
        ⟨.of "b" none none [] false, .asc⟩] := rfl
    cases hkeys.symm.trans hkeys'
    have hrow : (FieldRef.of "a" none none [] false).read [] (pairRow (.int 2) .null) =
        .ok (.int 2) := rfl
    have hpivot : (FieldRef.of "a" none none [] false).read [] (pairRow (.int 1) (.int 1)) =
        .ok (.int 1) := rfl
    have hfirst : compareValues .asc (.int 2) (.int 1) = .ok .gt :=
      compareValues_of_comparesAs (Value.comparesAs_int 2 1) (by simp) (by simp)
    simp only [compareRows, hrow, hpivot, hfirst, Outcome.ok_bind] at hcompared
    cases hcompared
    rfl
  have hkept : ¬LosesAt none [] (pairRow (.int 2) .null) (pairRow (.int 1) (.int 1)) byPair := by
    rintro (⟨hnull, _⟩ | ⟨⟨x, v, hx, hv, htie⟩, _⟩)
    · cases hnull
    · cases hx
      cases hv
      cases hapart.symm.trans htie
  exact ⟨by simp [byPair], hmeets, p, hp, (hiff.2 ⟨hbehind, hkept⟩) ▸ hselected⟩

/-- **A row whose null is put last is behind the cursor, but is not selected.** -/
theorem boundary_loses_null :
    ∃ p keys, (boundary none [("a", .int 1)] [⟨"a", .asc⟩]).outcome = .ok p ∧
      SortOrder.keys none [⟨"a", .asc⟩] = .ok keys ∧
      columnValue none [] "a" (.map [(.text "a", .int 1)]) = .ok (.int 1) ∧
      p.selects [] (.map [(.text "a", .null)]) = .ok false ∧
      compareRows [] keys (.map [(.text "a", .null)]) (.map [(.text "a", .int 1)]) = .ok .gt := by
  refine ⟨_, _, rfl, rfl, rfl, ?_, rfl⟩
  -- The comparison of a null with the bound is unknown, whatever the bound is.
  have hread : (FieldRef.of "a" none none [] false).read [] (.map [(.text "a", .null)]) =
      .ok .null := rfl
  have hunknown : Predicate.evaluate [] (.map [(.text "a", .null)])
      (.compare (.of "a" none none [] false) .gt (.int 1)) = .ok none :=
    Ranking.evaluate_compare_ok (b := true) hread (absurd rfl)
  exact Predicate.selects_ok (bound_ne_oddConst _ _) hunknown

end Cursor

end Sieve
