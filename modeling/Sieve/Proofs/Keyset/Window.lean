import Sieve.Proofs.Keyset.Page
import Sieve.Proofs.Keyset.Sides
import Sieve.Proofs.Keyset.Tokens

/-!
# Windows around a row

The matching rows of a collection have one arrangement by an ordering whose fields have values of
totally ordered types. A cursor made from any row of it leads to exactly the rows behind the row, or
in front of it.

* `Request.Ranked`: the rows of a collection can be arranged by the ordering of a request;
* `Request.Ranked.covers`: the ordering is a ranking of the collection;
* `Query.run_window`: the pages after and before every row of the arrangement.
-/

namespace Sieve

open Std (OrientedCmp)

variable {schema : Option Schema} {o : Options} {aliases : Aliases} {S : String → Value → Prop}
  {p : Predicate} {data : List Value} {r : Request}

/-- The filters are answered on all rows, the values to sort by are null or of totally ordered
types, and those of the matching rows are not null and tell the rows apart. -/
structure Request.Ranked (r : Request) (schema : Option Schema) (o : Options) (aliases : Aliases)
    (S : String → Value → Prop) (p : Predicate) (data : List Value) : Prop where
  ordered : r.orderNames ≠ []
  direct : Ranking.Direct schema r.orderNames
  total : ∀ n ∈ r.orderNames, Value.TotallyOrdered (S n)
  predicate : (r.predicate schema o).outcome = .ok p
  answers : ∀ row ∈ data, ∃ t, p.evaluate aliases row = .ok t
  typed : ∀ row ∈ data, Ranking.Holds schema S r.orderNames row
  full : ∀ row ∈ data, p.holds aliases row = true →
    ∀ n ∈ r.orderNames, sortValue schema n row ≠ .ok .null
  distinct : (data.filter (p.holds aliases)).Pairwise fun a b =>
    ∃ n ∈ r.orderNames, ∃ v w, sortValue schema n a = .ok v ∧ sortValue schema n b = .ok w ∧
      v.equal w = .ok false

/-! ### Collections -/

theorem Row.map_data_collection (data : List Value) :
    (Row.collection data).map (·.data) = data := by
  simp only [Row.collection, List.map_map]
  exact List.zipIdx_map_fst 0 data

theorem Row.data_mem {row : Row} (h : row ∈ Row.collection data) : row.data ∈ data := by
  rw [← Row.map_data_collection data]
  exact List.mem_map_of_mem h

theorem map_data_matching (aliases : Aliases) (p : Predicate) (data : List Value) :
    (matching aliases p (Row.collection data)).map (·.data) = data.filter (p.holds aliases) := by
  rw [matching, ← Row.map_data_collection data, List.filter_map, Row.map_data_collection]
  rfl

theorem Row.data_mem_of_matching {row : Row}
    (h : row ∈ matching aliases p (Row.collection data)) :
    row.data ∈ data ∧ p.holds aliases row.data = true :=
  ⟨Row.data_mem (Ranking.mem_of_mem_matching h), (List.mem_filter.1 h).2⟩

/-! ### Rankings of collections -/

/-- Filters are compiled to a conjunction. -/
theorem Request.predicate_proper (h : (r.predicate schema o).outcome = .ok p) (v : Value) :
    p ≠ .oddConst v := by
  rw [Request.predicate, Traced.bind_outcome] at h
  obtain ⟨t, _, h⟩ := Outcome.bind_eq_ok_iff.1 h
  rw [Filter.selectAll, Traced.bind_outcome] at h
  obtain ⟨ps, _, h⟩ := Outcome.bind_eq_ok_iff.1 h
  cases h
  simp

/-- Rows that tie have values that tie throughout. -/
theorem Ranking.cmp_eq_of_compare_eq {K : Ranking} {order : SortOrder} {a b : Value}
    (h : K.compare order a b = .eq) :
    ∀ t ∈ order, K.cmp t.field (K.value t.field a) (K.value t.field b) = .eq := by
  induction order with
  | nil => simp
  | cons t ts ih =>
    have hboth : t.direction.oriented (K.cmp t.field) (K.value t.field a) (K.value t.field b) = .eq ∧
        K.compare ts a b = .eq := Ordering.then_eq_eq.1 h
    intro u hu
    rcases List.mem_cons.1 hu with rfl | hu
    · have hor := hboth.1
      unfold Direction.oriented at hor
      split at hor
      · exact hor
      · have hswap : K.cmp u.field (K.value u.field a) (K.value u.field b) =
            (K.cmp u.field (K.value u.field b) (K.value u.field a)).swap := OrientedCmp.eq_swap
        have heq : K.cmp u.field (K.value u.field b) (K.value u.field a) = .eq := hor
        rw [hswap, heq]
        rfl
    · exact ih hboth.2 u hu

/-- Rows that differ in the values of some field do not tie. -/
theorem Ranking.tieFree_of_distinct {order : SortOrder} {rows : List Row}
    (htotal : ∀ n ∈ order.names, Value.TotallyOrdered (S n))
    (hfilled : ∀ row ∈ rows, Ranking.Filled schema S order.names row.data)
    (hdistinct : rows.Pairwise fun a b => ∃ n ∈ order.names, ∃ v w,
      sortValue schema n a.data = .ok v ∧ sortValue schema n b.data = .ok w ∧
        v.equal w = .ok false) :
    Strict.TieFree ((Ranking.typed schema S).rowOrder order) rows := by
  refine hdistinct.imp_of_mem fun {a b} ha hb hab htie => ?_
  obtain ⟨n, hn, v, w, hv, hw, hne⟩ := hab
  obtain ⟨t, ht, rfl⟩ := List.mem_map.1 hn
  have hva : v ≠ .null := fun hnull => (hfilled a ha).ne_null t.field hn (hnull ▸ hv)
  have hwb : w ≠ .null := fun hnull => (hfilled b hb).ne_null t.field hn (hnull ▸ hw)
  have hcmp := Ranking.cmp_eq_of_compare_eq htie t ht
  rw [Ranking.value_of_sortValue hv, Ranking.value_of_sortValue hw] at hcmp
  have hvalues := Ranking.compares_typed htotal (hfilled a ha).holds (hfilled b hb).holds t ht
  rw [Ranking.value_of_sortValue hv, Ranking.value_of_sortValue hw] at hvalues
  have hequal := (hvalues hva hwb).equal
  rw [hcmp, hne] at hequal
  cases hequal

namespace Request.Ranked

variable (h : r.Ranked schema o aliases S p data)
include h

/-- No value of a matching row to sort by is null. -/
theorem filled_of_holds {row : Value} (hrow : row ∈ data) (hholds : p.holds aliases row = true) :
    Ranking.Filled schema S r.orderNames row := by
  intro n hn
  obtain ⟨v, hv, hS⟩ := h.typed row hrow n hn
  have hne : v ≠ .null := fun hnull => h.full row hrow hholds n hn (hnull ▸ hv)
  exact ⟨v, hv, hne, hS.resolve_left hne⟩

theorem filled {row : Row} (hrow : row ∈ matching aliases p (Row.collection data)) :
    Ranking.Filled schema S r.orderNames row.data := by
  obtain ⟨hdata, hholds⟩ := Row.data_mem_of_matching hrow
  exact h.filled_of_holds hdata hholds

theorem tieFree : Strict.TieFree ((Ranking.typed schema S).rowOrder r.sort)
    (matching aliases p (Row.collection data)) := by
  have hdistinct := h.distinct
  rw [← map_data_matching, List.pairwise_map] at hdistinct
  exact Ranking.tieFree_of_distinct (by simpa using h.total)
    (fun row hrow => by simpa using h.filled hrow) (by simpa using hdistinct)

/-- **The ordering ranks the collection.** -/
theorem covers (hs : Schema.HasPaths schema) :
    (Ranking.typed schema S).Covers aliases r.sort p (Row.collection data) where
  nonempty := by
    intro hnil
    have hnames : r.sort.names = [] := by rw [hnil]; rfl
    rw [Request.sort_names] at hnames
    exact h.ordered hnames
  proper := Request.predicate_proper h.predicate
  answers row hrow := h.answers _ (Row.data_mem hrow)
  reads row hrow := Ranking.reads_typed hs (by simpa using h.direct)
    (by simpa using h.typed _ (Row.data_mem hrow))
  compares a ha b hb := Ranking.compares_typed (by simpa using h.total)
    (by simpa using h.typed _ (Row.data_mem ha)) (by simpa using h.typed _ (Row.data_mem hb))
  full row hrow := by
    obtain ⟨hdata, hholds⟩ := Row.data_mem_of_matching hrow
    exact Ranking.full_typed (by simpa using h.typed _ hdata)
      (by simpa using h.full _ hdata hholds)
  tieFree := h.tieFree

end Request.Ranked

/-! ### The sides of a row -/

namespace Ranking.Covers

variable {K : Ranking} {order : SortOrder} {rows : List Row}
  (h : K.Covers aliases order p rows) {k : Nat} (hk : k < (K.arranged aliases order p rows).length)
include h

/-- The rows after a row are those behind it in the arrangement. -/
theorem candidates_after :
    K.candidates aliases order p rows (some (K.arranged aliases order p rows)[k].data) =
      (K.arranged aliases order p rows).drop (k + 1) :=
  Strict.filter_after h.ascending hk

/-- The opposite order arranges the rows in reverse. -/
theorem arranged_reverse :
    K.arranged aliases order.reverse p rows = (K.arranged aliases order p rows).reverse := by
  have hopposite : K.rowOrder order.reverse = fun a b => K.rowOrder order b a := by
    funext a b
    exact K.compare_reverse order a.data b.data
  rw [arranged, hopposite]
  exact Strict.sorted_opposite h.tieFree

/-- The rows before a row are those in front of it in the arrangement, from the nearest one on. -/
theorem candidates_before :
    K.candidates aliases order.reverse p rows (some (K.arranged aliases order p rows)[k].data) =
      ((K.arranged aliases order p rows).take k).reverse := by
  have hafter : K.isAfter order.reverse (K.arranged aliases order p rows)[k].data =
      fun row => K.rowOrder order (K.arranged aliases order p rows)[k] row == .gt := by
    funext row
    rw [isAfter, compare_reverse]
    rfl
  rw [candidates, h.arranged_reverse, hafter, List.filter_reverse,
    Strict.filter_before h.ascending hk]

end Ranking.Covers

/-- A matching row does not come after itself. -/
theorem Ranking.leavesOut_self {K : Ranking} {order : SortOrder} {rows : List Row} {row : Row}
    (hrow : row ∈ matching aliases p rows) :
    K.leavesOut aliases order p rows (some row.data) = true := by
  refine List.any_eq_true.2 ⟨row, hrow, ?_⟩
  have hself : K.compare order row.data row.data = .eq := Std.ReflCmp.compare_self
  rw [isAfter, hself]
  rfl

/-! ### Requests around a row -/

theorem Request.direct_cases (r : Request) : r.direct = r.sort ∨ r.direct = r.sort.reverse := by
  unfold Request.direct
  split
  · exact .inr rfl
  · exact .inl rfl

/-- Every field is ordered by in the direct order as in the ordering itself. -/
theorem Request.exists_mem_sort {t : SortTerm} (ht : t ∈ r.direct) :
    ∃ u ∈ r.sort, u.field = t.field := by
  rcases r.direct_cases with hd | hd
  · exact ⟨t, hd ▸ ht, rfl⟩
  · rw [hd, SortOrder.reverse] at ht
    obtain ⟨u, hu, rfl⟩ := List.mem_map.1 ht
    exact ⟨u, hu, rfl⟩

theorem Request.field_mem {t : SortTerm} (ht : t ∈ r.direct) : t.field ∈ r.orderNames := by
  obtain ⟨u, hu, hfield⟩ := Request.exists_mem_sort ht
  rw [← Request.sort_names, ← hfield]
  exact Ranking.mem_names hu

namespace Request.Ranked

variable (hs : Schema.HasPaths schema) (h : r.Ranked schema o aliases S p data)
include hs h

theorem covers_direct :
    (Ranking.typed schema S).Covers aliases r.direct p (Row.collection data) := by
  rcases r.direct_cases with hd | hd
  · rw [hd]
    exact h.covers hs
  · rw [hd]
    exact (h.covers hs).reverse

/-- A request that starts at a row asks for the rows on one side of it. -/
theorem asks {start : Option Value} {n : Nat} (starts : r.StartsAt (Ranking.typed schema S) start)
    (pivots : ∀ pivot ∈ start,
      (Ranking.typed schema S).Pivots r.direct (Row.collection data) pivot)
    (size : r.size = .int n) :
    r.Asks schema aliases o (Ranking.typed schema S) p (Row.collection data) start n where
  predicate := h.predicate
  located := by
    intro t ht
    obtain ⟨u, hu, hfield⟩ := Request.exists_mem_sort ht
    rw [← hfield]
    exact Ranking.locates_typed (by simpa using h.direct) u hu
  covers := h.covers_direct hs
  starts := starts
  pivots := pivots
  size := size

omit hs in
/-- A request with the token of a matching row starts at the row. -/
theorem startsAt_row {row : Row} (hrow : row ∈ matching aliases p (Row.collection data))
    (hcursor : r.cursor = none) {c : Cursor} {token : String} (htoken : r.token = .text token)
    (hc : Cursor.ofRow schema row.data r.orderNames = .ok c) (hdec : Cursor.decode token = .ok c.raw) :
    r.StartsAt (Ranking.typed schema S) (some row.data) := by
  obtain ⟨hdata, hholds⟩ := Row.data_mem_of_matching hrow
  refine ⟨c, Request.pivot_of_token htoken hdec (.inl hcursor), fun t ht => ?_⟩
  exact Ranking.bound?_ofRow hc (Request.field_mem ht) (h.full _ hdata hholds _ (Request.field_mem ht))

end Request.Ranked

/-! ### Pages around a row -/

namespace Request.Ranked

theorem mem_matching_of_arranged {M : List Row}
    (hM : M = (Ranking.typed schema S).arranged aliases r.sort p (Row.collection data)) {k : Nat}
    (hk : k < M.length) : M[k] ∈ matching aliases p (Row.collection data) := by
  subst hM
  exact Ranking.mem_of_mem_arranged (List.getElem_mem hk)

variable (hs : Schema.HasPaths schema) (h : r.Ranked schema o aliases S p data)
  (ho : o.cursorFunction = none)
  (tokens : ∀ row ∈ matching aliases p (Row.collection data),
    ∃ token, Cursor.tokenOf schema none r.orderNames row.data = .ok token)
  {M : List Row} (hM : M = (Ranking.typed schema S).arranged aliases r.sort p (Row.collection data))
  {k : Nat} (hk : k < M.length) {c : Cursor} {token : String}
  (hc : Cursor.ofRow schema M[k].data r.orderNames = .ok c) (hdec : Cursor.decode token = .ok c.raw)
include hs h ho tokens hM hc hdec

/-- The page after a row. -/
theorem run_after (n : Nat) :
    ∃ page, (Query.run (.inMemory aliases (Row.collection data) schema o)
        (r.paginated { Pagination.empty with first := .int n, after := .text token })).outcome =
          .ok page ∧
      page.Shows schema r.orderNames ((M.drop (k + 1)).take n) (decide (k + 1 + n < M.length))
        true := by
  have hrow := mem_matching_of_arranged hM hk
  have hr : (r.paginated { Pagination.empty with first := .int n, after := .text token }).Ranked
      schema o aliases S p data := { h with }
  have hasks := hr.asks hs (hr.startsAt_row hrow rfl rfl hc hdec)
    (by rintro pivot ⟨⟩; exact (h.covers hs).pivots hrow) (n := n) rfl
  obtain ⟨page, hrun, hshows⟩ :=
    Query.run_first hasks ho rfl (hasks.ends_ok tokens (List.take_subset _ _))
  refine ⟨page, hrun, ?_⟩
  have hcandidates : (Ranking.typed schema S).candidates aliases r.sort p (Row.collection data)
      (some M[k].data) = M.drop (k + 1) := by
    subst hM
    exact (h.covers hs).candidates_after hk
  have hleaves : (Ranking.typed schema S).leavesOut aliases r.sort p (Row.collection data)
      (some M[k].data) = true := Ranking.leavesOut_self hrow
  have hmore : decide (n < M.length - (k + 1)) = decide (k + 1 + n < M.length) :=
    decide_eq_decide.2 (by omega)
  rw [← hmore, ← List.length_drop, ← hcandidates, ← hleaves]
  exact hshows

/-- The page before a row. -/
theorem run_before (n : Nat) :
    ∃ page, (Query.run (.inMemory aliases (Row.collection data) schema o)
        (r.paginated { Pagination.empty with last := .int n, before := .text token })).outcome =
          .ok page ∧
      page.Shows schema r.orderNames ((M.take k).drop (k - n)) true (decide (n < k)) := by
  have hrow := mem_matching_of_arranged hM hk
  have hr : (r.paginated { Pagination.empty with last := .int n, before := .text token }).Ranked
      schema o aliases S p data := { h with }
  have hasks := hr.asks hs (hr.startsAt_row hrow rfl rfl hc hdec)
    (by rintro pivot ⟨⟩; exact (h.covers hs).reverse.pivots hrow) (n := n) rfl
  obtain ⟨page, hrun, hshows⟩ := Query.run_last hasks ho rfl
    (hasks.ends_ok tokens fun _ hrow => List.take_subset _ _ (List.mem_reverse.1 hrow))
  refine ⟨page, hrun, ?_⟩
  have hcandidates : (Ranking.typed schema S).candidates aliases r.sort.reverse p
      (Row.collection data) (some M[k].data) = (M.take k).reverse := by
    subst hM
    exact (h.covers hs).candidates_before hk
  have hleaves : (Ranking.typed schema S).leavesOut aliases r.sort.reverse p (Row.collection data)
      (some M[k].data) = true := Ranking.leavesOut_self hrow
  have hlength : (M.take k).length = k := List.length_take_of_le (Nat.le_of_lt hk)
  -- The candidates come from the nearest one on, and the page turns them round.
  have hwindow : ((M.take k).reverse.take n).reverse = (M.take k).drop (k - n) := by
    rw [List.take_reverse, List.reverse_reverse, hlength]
  have hmore : decide (n < (M.take k).reverse.length) = decide (n < k) := by
    rw [List.length_reverse, hlength]
  rw [← hwindow, ← hmore, ← hcandidates, ← hleaves]
  exact hshows

end Request.Ranked

/-- From the token of every row of an arrangement, `n` rows forward are the next `n`, and `n` rows
backward are the `n` in front. Either page says correctly whether there are more rows in its
direction, that there are some on the other side, and which rows it begins and ends with. -/
def Query.Windows (schema : Option Schema) (o : Options) (aliases : Aliases) (data : List Value)
    (r : Request) (M : List Row) : Prop :=
  ∀ k (hk : k < M.length), ∃ token,
    Cursor.tokenOf schema none r.orderNames M[k].data = .ok token ∧ ∀ n : Nat,
      (∃ page, (Query.run (.inMemory aliases (Row.collection data) schema o)
          (r.paginated { Pagination.empty with first := .int n, after := .text token })).outcome =
            .ok page ∧
        page.Shows schema r.orderNames ((M.drop (k + 1)).take n) (decide (k + 1 + n < M.length))
          true) ∧
      ∃ page, (Query.run (.inMemory aliases (Row.collection data) schema o)
          (r.paginated { Pagination.empty with last := .int n, before := .text token })).outcome =
            .ok page ∧
        page.Shows schema r.orderNames ((M.take k).drop (k - n)) true (decide (n < k))

/-- **Every window around every row.** The matching rows have an arrangement in strictly ascending
order, and the pages around each of its rows are the windows of the arrangement. -/
theorem Query.run_window (hs : ∀ s ∈ schema, ∃ d, Schema.declare d = .ok s)
    (ho : o.cursorFunction = none) (h : r.Ranked schema o aliases S p data)
    (survives : ∀ row ∈ data, p.holds aliases row = true →
      Cursor.Survives schema r.orderNames row) :
    ∃ (M : List Row) (keys : List SortKey), r.sort.keys schema = .ok keys ∧
      M.Perm ((Row.collection data).filter (p.holds aliases ·.data)) ∧
      M.Pairwise (fun a b => compareRows aliases keys a.data b.data = .ok .lt) ∧
      Windows schema o aliases data r M := by
  have hpaths : Schema.HasPaths schema := by
    intro s hsome
    obtain ⟨d, hd⟩ := hs s hsome
    exact Schema.hasPaths_of_declare hd s rfl
  have hcovers := h.covers hpaths
  have htokens : ∀ row ∈ matching aliases p (Row.collection data), ∃ c token,
      Cursor.ofRow schema row.data r.orderNames = .ok c ∧
        Cursor.tokenOf schema none r.orderNames row.data = .ok token ∧
        Cursor.decode token = .ok c.raw := by
    intro row hrow
    obtain ⟨hdata, hholds⟩ := Row.data_mem_of_matching hrow
    exact (survives _ hdata hholds).token
  refine ⟨(Ranking.typed schema S).arranged aliases r.sort p (Row.collection data),
    r.sort.map (Ranking.typed schema S).key,
    Ranking.keys_ok (Ranking.locates_typed (by simpa using h.direct)),
    Strict.sorted_perm _, ?_, ?_⟩
  · refine hcovers.ascending.imp_of_mem fun {a b} ha hb hab => ?_
    rw [hcovers.compareRows_ok (Ranking.mem_of_mem_arranged ha) (Ranking.mem_of_mem_arranged hb),
      hab]
  · intro k hk
    obtain ⟨c, token, hc, htoken, hdec⟩ :=
      htokens _ (Ranking.mem_of_mem_arranged (List.getElem_mem hk))
    have hall : ∀ row ∈ matching aliases p (Row.collection data),
        ∃ token, Cursor.tokenOf schema none r.orderNames row.data = .ok token := by
      intro row hrow
      obtain ⟨_, token, _, htoken, _⟩ := htokens row hrow
      exact ⟨token, htoken⟩
    exact ⟨token, htoken, fun n => ⟨h.run_after hpaths ho hall rfl hk hc hdec n,
      h.run_before hpaths ho hall rfl hk hc hdec n⟩⟩

/-! ### Rows with numbers -/

/-- A row with a number. -/
def numberedRow (id : Int) : Value :=
  .record [("id", .int id)]

section Numbered

variable (hid : ∀ i, sortValue schema "id" (numberedRow i) = .ok (.int i))
include hid

theorem hasKinds_numberedRow (i : Int) :
    HasKinds schema (fun _ => .integer) ["id"] (numberedRow i) := by
  intro n hn
  rw [List.mem_singleton.1 hn]
  exact ⟨.int i, hid i, .integer i⟩

/-- Rows with different numbers are ranked by their numbers. -/
theorem ranked_numberedRow (horder : r.orderNames = ["id"]) (hdirect : Ranking.Direct schema ["id"])
    (hpredicate : (r.predicate schema o).outcome = .ok (.all [])) {ids : List Int}
    (hids : ids.Nodup) :
    r.Ranked schema o [] (fun _ => Kind.integer.Has) (.all []) (ids.map numberedRow) where
  ordered := by simp [horder]
  direct := horder ▸ hdirect
  total n hn := Kind.totallyOrdered .integer
  predicate := hpredicate
  answers row hrow := ⟨_, rfl⟩
  typed := by
    rw [horder]
    simp only [List.forall_mem_map]
    exact fun i _ => (hasKinds_iff.1 (hasKinds_numberedRow hid i)).1
  full := by
    rw [horder]
    simp only [List.forall_mem_map]
    exact fun i _ _ => (hasKinds_iff.1 (hasKinds_numberedRow hid i)).2
  distinct := by
    rw [horder]
    refine List.Pairwise.filter _ (List.pairwise_map.2 (hids.imp fun {i j} hij => ?_))
    refine ⟨"id", by simp, .int i, .int j, hid i, hid j, ?_⟩
    rw [Value.equal_int, beq_eq_false_iff_ne.2 hij]

theorem canCarry_numberedRow {i : Int}
    (hi : (Numeral.digitsOf i.natAbs).length ≤ Numeral.maxDigits) :
    CanCarry schema ["id"] (numberedRow i) := by
  intro n hn v hv
  rw [List.mem_singleton.1 hn, hid] at hv
  cases hv
  exact ⟨by simpa [Value.shortInts] using hi, rfl⟩

end Numbered

/-- Options that restrict nothing. -/
def Options.unrestricted : Options :=
  { (default : Options) with extra := .map [], ordering := .bool true, filtering := .bool true }

/-- A request for all rows from the greatest number down. -/
def Request.fromGreatest : Request :=
  ⟨[], some ["id"], some [.desc], .empty, none⟩

/-- The pages around two rows, from the greater one down. -/
theorem Query.run_window_numberedRow :
    Request.fromGreatest.Ranked none .unrestricted [] (fun _ => Kind.integer.Has) (.all [])
      ([1, 2].map numberedRow) ∧
    (∀ row ∈ [1, 2].map numberedRow, Predicate.holds [] (.all []) row = true →
      Cursor.Survives none Request.fromGreatest.orderNames row) ∧
    ∃ (M : List Row) (keys : List SortKey), Request.fromGreatest.sort.keys none = .ok keys ∧
      M.Perm ((Row.collection ([1, 2].map numberedRow)).filter
        (Predicate.holds [] (.all []) ·.data)) ∧
      M.Pairwise (fun a b => compareRows [] keys a.data b.data = .ok .lt) ∧
      Windows none .unrestricted [] ([1, 2].map numberedRow) Request.fromGreatest M := by
  have hid : ∀ i, sortValue none "id" (numberedRow i) = .ok (.int i) := fun _ => rfl
  have h : Request.fromGreatest.Ranked none .unrestricted [] (fun _ => Kind.integer.Has) (.all [])
      ([1, 2].map numberedRow) :=
    ranked_numberedRow hid rfl (fun n _ => ⟨_, rfl, trivial⟩) rfl (by decide)
  have hsurvives : ∀ row ∈ [1, 2].map numberedRow, Predicate.holds [] (.all []) row = true →
      Cursor.Survives none Request.fromGreatest.orderNames row := by
    simp only [List.map_cons, List.map_nil, List.forall_mem_cons]
    exact ⟨fun _ => (hasKinds_numberedRow hid 1).survives (by decide)
        (canCarry_numberedRow hid (by decide)),
      fun _ => (hasKinds_numberedRow hid 2).survives (by decide)
        (canCarry_numberedRow hid (by decide)), by simp⟩
  exact ⟨h, hsurvives, run_window (by simp) rfl h hsurvives⟩

end Sieve
