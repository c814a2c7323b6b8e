import Sieve.Proofs.Keyset.Fields
import Sieve.Proofs.Value.Reflexive

/-!
# A row at the boundary of its own cursor

The comparison of the last field of an ordering is strict, so a boundary of its cursor excludes the row
itself. The comparisons of all other fields are not. When the last field is passed over, because it is a
composite or has no value in the row, nothing strict is left and the row is selected by its own
boundary.

* `SortTerm.HasValue`: the fields that a boundary counts;
* `Cursor.boundary_own_iff`: when a row satisfies the boundary of its own cursor;
* `Cursor.boundary_selects_own`: a row that does.
-/

namespace Sieve

/-- The field of the term is no composite, and the row has a value there that is not null. -/
def SortTerm.HasValue (schema : Option Schema) (row : Value) (t : SortTerm) (x : Value) : Prop :=
  ∃ f, resolveField schema t.field = .ok f ∧ f.kind ≠ .composite ∧ f.read schema row = .ok x ∧
    x ≠ .null

/-- The row has no such value. -/
def SortTerm.IsSkipped (schema : Option Schema) (row : Value) (t : SortTerm) : Prop :=
  ∀ x, ¬t.HasValue schema row x

theorem SortTerm.IsSkipped.of_composite {schema : Option Schema} {row : Value} {t : SortTerm}
    {f : Field} (hf : resolveField schema t.field = .ok f)
    (hkind : f.kind = .composite) : t.IsSkipped schema row := by
  rintro x ⟨g, hg, hne, _⟩
  cases hf.symm.trans hg
  exact hne hkind

theorem SortTerm.IsSkipped.of_null {schema : Option Schema} {row : Value} {t : SortTerm} {f : Field}
    (hf : resolveField schema t.field = .ok f)
    (hnull : f.read schema row = .ok .null) : t.IsSkipped schema row := by
  rintro x ⟨g, hg, _, hx, hne⟩
  cases hf.symm.trans hg
  cases hnull.symm.trans hx
  exact hne rfl

theorem Field.IsDirect.kind_ne_composite {f : Field} (h : f.IsDirect) : f.kind ≠ .composite := by
  cases f with
  | plain | join => simp [Field.kind]
  | isAlias | composite | custom => exact h.elim

/-- A value is not beyond itself in any direction. -/
theorem Direction.strictly_holds_self (d : Direction) (x : Value) :
    d.strictly.holds x x = (fun _ => false) <$> x.precedes true x := by
  unfold Direction.strictly
  split <;> exact Value.precedes_self x

theorem Direction.atLeast_holds_self (d : Direction) (x : Value) :
    d.atLeast.holds x x = x.precedes true x := by
  unfold Direction.atLeast
  split <;> rfl

theorem Predicate.evaluate_compare {aliases : Aliases} {row x v : Value} {r : FieldRef}
    {c : Comparison} (hr : r.read aliases row = .ok x) (hx : x ≠ .null) :
    evaluate aliases row (.compare r c v) = some <$> c.holds x v := by
  simp only [evaluate, unlessNull, hr, Outcome.ok_bind, Value.isNull_eq_false hx]
  cases c.holds x v <;> rfl

namespace Cursor

variable {schema : Option Schema} {aliases : Aliases} {row x : Value} {c : Cursor} {t : SortTerm}
  {rest order : SortOrder} {f : Field} {r : FieldRef}

theorem strictly_own (hr : r.read aliases row = .ok x) (hx : x ≠ .null) (d : Direction) :
    Predicate.evaluate aliases row (.compare r d.strictly x) =
      (fun _ => some false) <$> x.precedes true x := by
  rw [Predicate.evaluate_compare hr hx, Direction.strictly_holds_self]
  cases x.precedes true x <;> rfl

theorem atLeast_own (hr : r.read aliases row = .ok x) (hx : x ≠ .null) (d : Direction) :
    Predicate.evaluate aliases row (.compare r d.atLeast x) = some <$> x.precedes true x := by
  rw [Predicate.evaluate_compare hr hx, Direction.atLeast_holds_self]

/-- A bound of the value of the row itself excludes the row if nothing follows. -/
theorem bound_own_last (hr : r.read aliases row = .ok x) (hx : x ≠ .null) (d : Direction) :
    (bound r d x none).evaluate aliases row ≠ .ok (some true) := by
  show Predicate.evaluate aliases row (.compare r d.strictly x) ≠ _
  rw [strictly_own hr hx]
  cases x.precedes true x <;> simp

/-- A bound of the value of the row itself leaves the answer to what follows. -/
theorem bound_own_inner {p : Predicate} (hr : r.read aliases row = .ok x) (hx : x ≠ .null)
    (hp : ∀ w, p ≠ .oddConst w) (d : Direction) :
    (bound r d x (some p)).evaluate aliases row = .ok (some true) ↔
      x.precedes true x = .ok true ∧ p.evaluate aliases row = .ok (some true) := by
  show Predicate.evaluate aliases row
      (.all [.compare r d.atLeast x, .any [.compare r d.strictly x, p]]) = _ ↔ _
  rw [Predicate.evaluate_all_eq_true_iff (by simp) (by simp),
    Predicate.evaluate_any_eq_true_iff (by simp) hp, atLeast_own hr hx, strictly_own hr hx]
  cases x.precedes true x with
  | error e => simp
  | ok b => cases b <;> simp

/-! ### Terms -/

/-- What holds of the boundary of a row: the row satisfies it if the last term is skipped and all
other values are in order with themselves. -/
def OwnAnswer (schema : Option Schema) (aliases : Aliases) (row : Value) (order : SortOrder)
    (p : Predicate) : Prop :=
  p.evaluate aliases row = .ok (some true) ↔
    (∀ t ∈ order.getLast?, t.IsSkipped schema row) ∧
    ∀ t ∈ order, ∀ x, t.HasValue schema row x → x.precedes true x = .ok true

theorem ownAnswer_nil : OwnAnswer schema aliases row [] (.const true) := by
  simp [OwnAnswer]

theorem ownAnswer_skipped {p : Predicate} (h : OwnAnswer schema aliases row rest p)
    (hskip : t.IsSkipped schema row) : OwnAnswer schema aliases row (t :: rest) p := by
  unfold OwnAnswer at h ⊢
  rw [h]
  have hlast : (∀ u ∈ (t :: rest).getLast?, u.IsSkipped schema row) ↔
      ∀ u ∈ rest.getLast?, u.IsSkipped schema row := by
    cases rest with
    | nil => simpa using hskip
    | cons u us => rw [List.getLast?_cons_cons]
  have hvalues : (∀ u ∈ t :: rest, ∀ x, u.HasValue schema row x → x.precedes true x = .ok true) ↔
      ∀ u ∈ rest, ∀ x, u.HasValue schema row x → x.precedes true x = .ok true := by
    rw [List.forall_mem_cons]
    exact and_iff_right fun x hx => absurd hx (hskip x)
  rw [hlast, hvalues]

theorem ownAnswer_counted {p : Predicate} (h : OwnAnswer schema aliases row rest p)
    (hp : ∀ w, p ≠ .oddConst w) (ht : t.HasValue schema row x)
    (hr : r.read aliases row = .ok x) :
    OwnAnswer schema aliases row (t :: rest)
      (bound r t.direction x (if rest.isEmpty then none else some p)) := by
  have hx : x ≠ .null := by
    obtain ⟨_, _, _, _, hx⟩ := ht
    exact hx
  have hvalue : ∀ y, t.HasValue schema row y ↔ y = x := by
    obtain ⟨f, hf, _, hfx, _⟩ := id ht
    refine fun y => ⟨?_, fun hy => hy ▸ ht⟩
    rintro ⟨g, hg, _, hy, _⟩
    cases hf.symm.trans hg
    cases hfx.symm.trans hy
    rfl
  unfold OwnAnswer at h ⊢
  cases rest with
  | nil =>
    -- The term is the last one: its bound is strict, and it is not skipped.
    have hnot : ¬t.IsSkipped schema row := fun hskip => hskip x ht
    exact iff_of_false (bound_own_last hr hx t.direction) fun hall => hnot (hall.1 t (by simp))
  | cons u us =>
    show (bound r t.direction x (some p)).evaluate aliases row = _ ↔ _
    rw [bound_own_inner hr hx hp, h, List.getLast?_cons_cons, List.forall_mem_cons (a := t)]
    simp only [hvalue, forall_eq]
    exact and_left_comm

/-- **A row satisfies the boundary of its own cursor exactly if the last field of the ordering is
skipped**, and no comparison of the other values with themselves is refused or answered no. -/
theorem boundary_own_iff (hs : Schema.HasPaths schema)
    (hfields : ∀ t ∈ order, ∃ f, resolveField schema t.field = .ok f ∧
      (f.IsDirect ∨ f.kind = .composite))
    (hc : ofRow schema row order.names = .ok c) (aliases : Aliases) :
    ∃ p, (c.boundary schema order).outcome = .ok p ∧ (∀ w, p ≠ .oddConst w) ∧
      (p.evaluate aliases row = .ok (some true) ↔
        (∀ t ∈ order.getLast?, t.IsSkipped schema row) ∧
        ∀ t ∈ order, ∀ x, t.HasValue schema row x → x.precedes true x = .ok true) := by
  have hlookup : ∀ t ∈ order, ∃ v, sortValue schema t.field row = .ok v ∧
      c.lookup t.field = some v := fun t ht => lookup_ofRow hc (List.mem_map_of_mem ht)
  clear hc
  induction order with
  | nil => exact ⟨.const true, rfl, by simp, ownAnswer_nil⟩
  | cons t rest ih =>
    obtain ⟨p, hp, hproper, hown⟩ := ih (fun u hu => hfields u (by simp [hu]))
      fun u hu => hlookup u (by simp [hu])
    obtain ⟨f, hf, hdirect | hkind⟩ := hfields t (by simp)
    · obtain ⟨v, hv, hcv⟩ := hlookup t (by simp)
      have hread : f.read schema row = .ok v := by simpa [sortValue, hf] using hv
      obtain ⟨r, hr⟩ := Field.ref?_of_isDirect hdirect
      by_cases hnull : v = .null
      · subst hnull
        have hbound : c.bound? t.field = none := by simp [bound?, hcv]
        refine ⟨p, ?_, hproper, ownAnswer_skipped hown (SortTerm.IsSkipped.of_null hf hread)⟩
        rw [boundary_unbounded hf hdirect.isColumn hbound]
        exact hp
      · have hbound : c.bound? t.field = some v := by
          rw [bound?, hcv]
          split
          · next heq => exact absurd (Option.some_inj.1 heq) hnull
          · rfl
        have hrow : r.read aliases row = .ok v := by
          rw [Field.read_ref hdirect (Field.hasPath_of_resolve hs hf) hr schema aliases]
          exact hread
        refine ⟨_, ?_, bound_ne_oddConst _ _, ownAnswer_counted hown hproper
          ⟨f, hf, hdirect.kind_ne_composite, hread, hnull⟩ hrow⟩
        rw [boundary_kept hf hdirect.isColumn hr hbound, Traced.bind_outcome, hp]
        rfl
    · refine ⟨p, ?_, hproper, ownAnswer_skipped hown (SortTerm.IsSkipped.of_composite hf hkind)⟩
      rw [boundary_composite hf hkind]
      exact hp

/-- A row with values in both columns does not satisfy the boundary of its cursor. -/
theorem boundary_own_pairRow :
    Schema.HasPaths none ∧
    (∀ t ∈ byPair, ∃ f, resolveField none t.field = .ok f ∧
      (f.IsDirect ∨ f.kind = .composite)) ∧
    ofRow none (pairRow (.int 1) (.int 2)) byPair.names = .ok [("a", .int 1), ("b", .int 2)] ∧
    ∃ p, (boundary none [("a", .int 1), ("b", .int 2)] byPair).outcome = .ok p ∧
      p.evaluate [] (pairRow (.int 1) (.int 2)) ≠ .ok (some true) := by
  have hpaths : Schema.HasPaths none := by rintro s ⟨⟩
  have hfields : ∀ t ∈ byPair, ∃ f, resolveField none t.field = .ok f ∧
      (f.IsDirect ∨ f.kind = .composite) := fun t _ => ⟨_, rfl, .inl trivial⟩
  have hcursor : ofRow none (pairRow (.int 1) (.int 2)) byPair.names =
      .ok [("a", .int 1), ("b", .int 2)] := rfl
  obtain ⟨p, hp, -, hiff⟩ := boundary_own_iff hpaths hfields hcursor []
  refine ⟨hpaths, hfields, hcursor, p, hp, fun hself => ?_⟩
  have hskipped := (hiff.1 hself).1 ⟨"b", .asc⟩ rfl
  exact hskipped (.int 2) ⟨_, rfl, Field.IsDirect.kind_ne_composite trivial, rfl, by simp⟩

/-- **A row without a value in the last column satisfies the boundary of its own cursor.** -/
theorem boundary_selects_own :
    ofRow none (pairRow (.int 1) .null) byPair.names = .ok [("a", .int 1), ("b", .null)] ∧
    ∃ p, (boundary none [("a", .int 1), ("b", .null)] byPair).outcome = .ok p ∧
      p.evaluate [] (pairRow (.int 1) .null) = .ok (some true) := by
  refine ⟨rfl, bound (.of "a" none none [] false) .asc (.int 1) (some (.const true)), rfl, ?_⟩
  rw [bound_own_inner rfl (by simp) (by simp)]
  exact ⟨by simp [Value.ordered], rfl⟩

end Cursor

end Sieve
