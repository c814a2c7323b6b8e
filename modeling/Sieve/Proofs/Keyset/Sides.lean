import Sieve.Proofs.Keyset.Fields
import Sieve.Proofs.Value.Kinds

/-!
# The two sides of a row

A cursor is compared with rows twice: sorting compares rows with each other, key by key, and the
boundary of the cursor is a predicate that is built from the last key to the first. Both put a row on
the same side of the row that the cursor was made of, for any ordering and any directions.

* `Ranking.Filled`: rows with values of the given types in the named fields;
* `Ranking.compareRows_filled`: how they are sorted;
* `Cursor.boundary_sides`: the boundaries of a row, forward and backward, say on which side of it other
  rows are.
-/

namespace Sieve

variable {schema : Option Schema} {aliases : Aliases} {S : String → Value → Prop}
  {order : SortOrder} {row pivot : Value}

/-- The fields of the row have values of the given types, none of which is null. -/
def Ranking.Filled (schema : Option Schema) (S : String → Value → Prop) (names : List String)
    (row : Value) : Prop :=
  ∀ n ∈ names, ∃ v, sortValue schema n row = .ok v ∧ v ≠ .null ∧ S n v

namespace Ranking.Filled

variable {names : List String} (h : Ranking.Filled schema S names row)
include h

theorem holds : Ranking.Holds schema S names row := by
  intro n hn
  obtain ⟨v, hv, _, hS⟩ := h n hn
  exact ⟨v, hv, .inr hS⟩

theorem ne_null : ∀ n ∈ names, sortValue schema n row ≠ .ok .null := by
  intro n hn hnull
  obtain ⟨v, hv, hne, _⟩ := h n hn
  cases hv.symm.trans hnull
  exact hne rfl

end Ranking.Filled

/-- Rows with such values are sorted as the ranking says. -/
theorem Ranking.compareRows_filled (hs : Schema.HasPaths schema)
    (hdirect : Ranking.Direct schema order.names)
    (htotal : ∀ n ∈ order.names, Value.TotallyOrdered (S n)) {a b : Value}
    (ha : Ranking.Filled schema S order.names a) (hb : Ranking.Filled schema S order.names b) :
    compareRows aliases (order.map (Ranking.typed schema S).key) a b =
      .ok ((Ranking.typed schema S).compare order a b) :=
  Ranking.compareRows_ok (Ranking.reads_typed hs hdirect ha.holds)
    (Ranking.reads_typed hs hdirect hb.holds) (Ranking.full_typed ha.holds ha.ne_null)
    (Ranking.full_typed hb.holds hb.ne_null) (Ranking.compares_typed htotal ha.holds hb.holds)

/-- The boundary of a row holds for the rows that an ordering by the fields of a ranking compares as
greater. -/
theorem Ranking.boundary_answers {K : Ranking} {c : Cursor} (hne : order ≠ [])
    (hlocates : K.Locates schema order) (hc : ∀ t ∈ order, c.bound? t.field = some (K.value t.field pivot))
    (hreads : K.Reads aliases order row) (hrow : K.Full order row) (hpivot : K.Full order pivot)
    (hleft : K.Compares order row pivot) (hright : K.Compares order pivot row) :
    ∃ p, c.boundary schema order = ⟨[], .ok p⟩ ∧
      p.evaluate aliases row = .ok (some (K.compare order row pivot == .gt)) := by
  obtain ⟨t, ht, hfull⟩ := Ranking.edge_answer hreads hpivot hleft hright hne
  exact ⟨_, Ranking.boundary_ok hlocates hc, by rw [ht, hfull hrow]⟩

namespace Cursor

/-- **The boundary of a row divides the other rows as the ordering does.** For fields that are found on
their own and have values of totally ordered types, the boundary is never unknown. It holds for exactly
the rows that are sorted behind the row of the cursor; under the reversed ordering, for exactly those
that the ordering itself sorts in front of it. -/
theorem boundary_sides (hs : ∀ s ∈ schema, ∃ d, Schema.declare d = .ok s) (hne : order ≠ [])
    (hdirect : Ranking.Direct schema order.names)
    (htotal : ∀ n ∈ order.names, Value.TotallyOrdered (S n))
    (hrow : Ranking.Filled schema S order.names row)
    (hpivot : Ranking.Filled schema S order.names pivot) :
    ∃ (c : Cursor) (keys : List SortKey) (o : Ordering) (after before : Predicate),
      ofRow schema pivot order.names = .ok c ∧ order.keys schema = .ok keys ∧
      compareRows aliases keys row pivot = .ok o ∧
      c.boundary schema order = ⟨[], .ok after⟩ ∧
      after.evaluate aliases row = .ok (some (o == .gt)) ∧
      c.boundary schema order.reverse = ⟨[], .ok before⟩ ∧
      before.evaluate aliases row = .ok (some (o == .lt)) := by
  have hpaths : Schema.HasPaths schema := by
    intro s hsome
    obtain ⟨d, hd⟩ := hs s hsome
    exact Schema.hasPaths_of_declare hd s rfl
  let K := Ranking.typed schema S
  have hlocates : K.Locates schema order := Ranking.locates_typed hdirect
  have hreads : ∀ {r : Value}, Ranking.Filled schema S order.names r → K.Reads aliases order r :=
    fun hr => Ranking.reads_typed hpaths hdirect hr.holds
  have hfull : ∀ {r : Value}, Ranking.Filled schema S order.names r → K.Full order r :=
    fun hr => Ranking.full_typed hr.holds hr.ne_null
  have hleft : K.Compares order row pivot := Ranking.compares_typed htotal hrow.holds hpivot.holds
  have hright : K.Compares order pivot row := Ranking.compares_typed htotal hpivot.holds hrow.holds
  obtain ⟨c, hc⟩ := exists_ofRow fun n hn => (hpivot n hn).imp fun _ h => h.1
  have hbound : ∀ t ∈ order, c.bound? t.field = some (K.value t.field pivot) := fun t ht =>
    Ranking.bound?_ofRow hc (Ranking.mem_names ht) (hpivot.ne_null _ (Ranking.mem_names ht))
  obtain ⟨after, hafter, hbehind⟩ := Ranking.boundary_answers hne hlocates hbound (hreads hrow)
    (hfull hrow) (hfull hpivot) hleft hright
  -- The reversed ordering has the same fields, so what is known of the ordering holds of it too.
  have hreverse : order.reverse ≠ [] := by simpa [SortOrder.reverse] using hne
  obtain ⟨before, hbefore, hfront⟩ := Ranking.boundary_answers hreverse
    (by simpa [Ranking.Locates, SortOrder.reverse] using hlocates)
    (by simpa [SortOrder.reverse] using hbound) (Ranking.reads_reverse.2 (hreads hrow))
    (Ranking.full_reverse.2 (hfull hrow)) (Ranking.full_reverse.2 (hfull hpivot))
    (Ranking.compares_reverse.2 hleft) (Ranking.compares_reverse.2 hright)
  refine ⟨c, _, _, after, before, hc, Ranking.keys_ok hlocates,
    Ranking.compareRows_ok (hreads hrow) (hreads hpivot) (hfull hrow) (hfull hpivot) hleft,
    hafter, hbehind, hbefore, ?_⟩
  have hswap : K.compare order pivot row = (K.compare order row pivot).swap :=
    Std.OrientedCmp.eq_swap
  rw [hfront, K.compare_reverse, hswap]
  cases K.compare order row pivot <;> rfl

/-- Rows with two numbers. -/
def coordinates (x y : Int) : Value :=
  .map [(.text "x", .int x), (.text "y", .int y)]

/-- An ordering that names a field twice, in opposite directions. -/
def zigzag : SortOrder :=
  [⟨"x", .ascNullsFirst⟩, ⟨"y", .desc⟩, ⟨"x", .desc⟩]

/-- On a tie of the first numbers the second ones decide, against their own direction. -/
theorem boundary_sides_zigzag :
    zigzag ≠ [] ∧ Ranking.Direct none zigzag.names ∧
    (∀ n ∈ zigzag.names, Value.TotallyOrdered Kind.integer.Has) ∧
    Ranking.Filled none (fun _ => Kind.integer.Has) zigzag.names (coordinates 1 2) ∧
    Ranking.Filled none (fun _ => Kind.integer.Has) zigzag.names (coordinates 1 5) ∧
    ∃ (c : Cursor) (after before : Predicate),
      ofRow none (coordinates 1 5) zigzag.names = .ok c ∧
      c.boundary none zigzag = ⟨[], .ok after⟩ ∧
      after.evaluate [] (coordinates 1 2) = .ok (some true) ∧
      c.boundary none zigzag.reverse = ⟨[], .ok before⟩ ∧
      before.evaluate [] (coordinates 1 2) = .ok (some false) := by
  have hne : zigzag ≠ [] := by simp [zigzag]
  have hdirect : Ranking.Direct none zigzag.names := fun n _ => ⟨_, rfl, trivial⟩
  have htotal : ∀ n ∈ zigzag.names, Value.TotallyOrdered Kind.integer.Has :=
    fun _ _ => Kind.totallyOrdered .integer
  have hfilled : ∀ x y, Ranking.Filled none (fun _ => Kind.integer.Has) zigzag.names
      (coordinates x y) := by
    intro x y n hn
    simp only [zigzag, SortOrder.names, List.map_cons, List.map_nil, List.mem_cons,
      List.not_mem_nil, or_false] at hn
    rcases hn with rfl | rfl | rfl
    · exact ⟨.int x, rfl, by simp, .integer x⟩
    · exact ⟨.int y, rfl, by simp, .integer y⟩
    · exact ⟨.int x, rfl, by simp, .integer x⟩
  obtain ⟨c, keys, o, after, before, hc, hkeys, ho, hafter, hbehind, hbefore, hfront⟩ :=
    @boundary_sides none [] _ zigzag _ _ (by simp) hne hdirect htotal (hfilled 1 2) (hfilled 1 5)
  have hgt : o = .gt := by
    have hkeys' : zigzag.keys none = .ok [⟨.of "x" none none [] false, .ascNullsFirst⟩,
        ⟨.of "y" none none [] false, .desc⟩, ⟨.of "x" none none [] false, .desc⟩] := rfl
    cases hkeys.symm.trans hkeys'
    have hx : ∀ x y, (FieldRef.of "x" none none [] false).read [] (coordinates x y) =
        .ok (.int x) := fun _ _ => rfl
    have hy : ∀ x y, (FieldRef.of "y" none none [] false).read [] (coordinates x y) =
        .ok (.int y) := fun _ _ => rfl
    have htie : compareValues .ascNullsFirst (.int 1) (.int 1) = .ok .eq :=
      compareValues_of_comparesAs (Value.comparesAs_int 1 1) (by simp) (by simp)
    have hsecond : compareValues .desc (.int 2) (.int 5) = .ok .gt :=
      compareValues_of_comparesAs (Value.comparesAs_int 2 5) (by simp) (by simp)
    simp only [compareRows, hx, hy, htie, hsecond, Outcome.ok_bind] at ho
    cases ho
    rfl
  subst hgt
  exact ⟨hne, hdirect, htotal, hfilled 1 2, hfilled 1 5, c, after, before, hc, hafter, hbehind,
    hbefore, hfront⟩

end Cursor

end Sieve
