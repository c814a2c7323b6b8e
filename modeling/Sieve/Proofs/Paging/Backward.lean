import Sieve.Proofs.Paging.Arrangement
import Sieve.Proofs.Schema.Composites

/-!
# The last rows are the end of the first ones

A request for the last rows orders them the other way round and turns the page round again. The reversed
ordering compares rows in exactly the opposite way, nulls included, so without ties both directions show
parts of one list.

* `compareRows_reverse`: reversed keys compare the other way round;
* `SortOrder.keys_reverse`: composites expand alike in both directions;
* `Field.Orderable`: the fields that can be ordered by, `SortOrder.exists_keys`: they have keys;
* `Query.rows_of_cursor`: the rows of a request without a token;
* `Query.rows_last`: both directions together.
-/

namespace Sieve

open Std (TransCmp)

variable {schema : Option Schema} {aliases : Aliases} {o : Options} {p : Predicate}
  {keys : List SortKey} {rows : List Row} {r : Request}

/-! ### Reversed keys -/

/-- The key of the opposite enumeration. -/
def SortKey.reverse (k : SortKey) : SortKey := ⟨k.ref, k.direction.reverse⟩

/-- The term of the opposite enumeration. -/
def SortTerm.reverse (t : SortTerm) : SortTerm := ⟨t.field, t.direction.reverse⟩

/-- The reversed direction compares the other way round, nulls included. -/
theorem compareValues_reverse (d : Direction) (v w : Value) :
    compareValues d.reverse v w = Ordering.swap <$> compareValues d v w := by
  have hnulls : compareNulls d.reverse v w = (compareNulls d v w).map Ordering.swap := by
    rw [compareNulls, compareNulls, Direction.nullPlace_reverse]
    cases v.isNull <;> cases w.isNull <;> cases d.nullPlace <;> rfl
  rw [compareValues, compareValues, hnulls]
  cases compareNulls d v w with
  | some c => rfl
  | none =>
    cases v.equal w with
    | error e => rfl
    | ok same =>
      cases same with
      | true => rfl
      | false =>
        cases v.precedes false w with
        | error e => rfl
        | ok less => cases less <;> cases d <;> rfl

/-- **Reversed keys compare rows the other way round**, whatever their values are. -/
theorem compareRows_reverse (keys : List SortKey) (a b : Value) :
    compareRows aliases (keys.map SortKey.reverse) a b =
      Ordering.swap <$> compareRows aliases keys a b := by
  induction keys with
  | nil => rfl
  | cons k ks ih =>
    rw [List.map_cons, compareRows, compareRows, SortKey.reverse]
    cases k.ref.read aliases a with
    | error e => rfl
    | ok v =>
      cases k.ref.read aliases b with
      | error e => rfl
      | ok w =>
        simp only [Outcome.ok_bind, compareValues_reverse]
        cases compareValues k.direction v w with
        | error e => rfl
        | ok c =>
          cases c with
          | eq => exact ih
          | lt | gt => rfl

/-! ### Reversed orderings -/

namespace SortOrder

/-- A term expands to the same fields in both directions. -/
theorem expandTerm_reverse (s : Schema) (t : SortTerm) :
    expandTerm s t.reverse = reverse <$> expandTerm s t := by
  simp only [expandTerm, SortTerm.reverse]
  split
  · simp only [Outcome.map_ok, reverse, List.map_map]
    rfl
  · rfl
  · rfl

/-- Expanding composites and reversing an ordering may be done in any order. -/
theorem expand_reverse (order : SortOrder) :
    order.reverse.expand schema = reverse <$> order.expand schema := by
  cases schema with
  | none => rfl
  | some s =>
    have hparts : order.reverse.mapM (expandTerm s) =
        List.map reverse <$> order.mapM (expandTerm s) :=
      Outcome.mapM_map (expandTerm_reverse s) order
    simp only [expand, hparts]
    cases order.mapM (expandTerm s) with
    | error e => rfl
    | ok parts => exact congrArg Except.ok List.map_flatten.symm

/-- **The keys of a reversed ordering** are the reversed keys. -/
theorem keys_reverse (order : SortOrder) :
    order.reverse.keys schema = List.map SortKey.reverse <$> order.keys schema := by
  have hkey : ∀ t : SortTerm, key schema t.reverse = SortKey.reverse <$> key schema t := by
    intro t
    simp only [key, SortTerm.reverse]
    cases resolveField schema t.field with
    | error e => rfl
    | ok f =>
      simp only [Outcome.ok_bind]
      cases f.ref <;> rfl
  rw [keys, keys, expand_reverse]
  cases order.expand schema with
  | error e => rfl
  | ok terms => exact Outcome.mapM_map hkey terms

end SortOrder

/-! ### Fields that can be ordered by -/

/-- The field can be ordered by: a column, an alias, or a composite of columns. -/
inductive Field.Orderable (schema : Option Schema) : Field → Prop
  | column {f : Field} (h : f.IsColumn) : Orderable schema f
  | isAlias (name : String) : Orderable schema (.isAlias name)
  | composite (name : String) {members : List String}
    (h : ∀ m ∈ members, ∃ f, resolveField schema m = .ok f ∧ f.IsColumn) :
    Orderable schema (.composite name members)

theorem Field.IsColumn.found {s : Schema} {n : String} {f : Field} (h : f.IsColumn)
    (hf : resolveField (some s) n = .ok f) : s.Found n := by
  obtain ⟨r, hr⟩ := h.exists_ref
  exact ⟨f, Schema.resolve_eq_ok_iff.1 hf, by rw [hr]; rfl⟩

/-- A term for such a field expands to terms for fields that are found in rows. -/
theorem Field.Orderable.exists_expandTerm {s : Schema} {t : SortTerm} {f : Field}
    (h : f.Orderable (some s)) (hf : resolveField (some s) t.field = .ok f) :
    ∃ ts, SortOrder.expandTerm s t = .ok ts ∧ ∀ u ∈ ts, s.Found u.field := by
  have hget : s.get? t.field = some f := Schema.resolve_eq_ok_iff.1 hf
  have hself : s.Found t.field → ∀ u ∈ [t], s.Found u.field := fun hfound u hu =>
    List.mem_singleton.1 hu ▸ hfound
  cases h with
  | column h =>
    refine ⟨[t], ?_, hself (h.found hf)⟩
    rw [SortOrder.expandTerm, hget]
    rcases h with h | h <;> cases f <;> first | rfl | cases h
  | isAlias name =>
    refine ⟨[t], ?_, hself ⟨_, hget, rfl⟩⟩
    rw [SortOrder.expandTerm, hget]
  | composite name h =>
    refine ⟨_, by rw [SortOrder.expandTerm, hget], fun u hu => ?_⟩
    obtain ⟨m, hm, rfl⟩ := List.mem_map.1 hu
    obtain ⟨g, hg, hcolumn⟩ := h m hm
    exact hcolumn.found hg

/-- Orderings by such fields have keys. -/
theorem SortOrder.exists_keys {order : SortOrder}
    (h : ∀ t ∈ order, ∃ f, resolveField schema t.field = .ok f ∧ f.Orderable schema) :
    ∃ keys, order.keys schema = .ok keys := by
  cases schema with
  | none => exact Outcome.exists_mapM_ok fun t _ => ⟨_, rfl⟩
  | some s =>
    refine Schema.exists_keys fun t ht => ?_
    obtain ⟨f, hf, horder⟩ := h t ht
    exact horder.exists_expandTerm hf

/-! ### Requests without a token -/

/-- **The rows of a request without a token**: as many of the sorted ones as are asked for, turned round
where the last ones are. -/
theorem Query.rows_of_cursor {n : ℕ} {selected sorted : List Row} (hc : r.byCursor = true)
    (htoken : r.token = .null) (hsize : r.size = .int n)
    (hpredicate : (r.predicate schema o).outcome = .ok p) (hkeys : r.direct.keys schema = .ok keys)
    (hselect : selectRows aliases p rows = .ok selected)
    (hsort : sortRows aliases keys selected = .ok sorted) :
    (Query.rows (.inMemory aliases rows schema o) r).outcome =
      .ok (if r.isBackward then (sorted.take n).reverse else sorted.take n) := by
  have hplan := Request.plan_unpivoted hc (Request.pivot_withoutToken htoken) hpredicate hkeys hsize
  have hfetch : fetch aliases rows ⟨p, keys, .int (n + 1 : ℕ), .null, r.isBackward⟩ =
      .ok (sorted.take (n + 1)) := by
    rw [fetch, hselect, Outcome.ok_bind, hsort, Outcome.ok_bind]
    exact Ranking.window_ofNat sorted (n + 1)
  simp only [Query.rows, Query.fetchPage, Query.inMemory, Traced.bind_outcome, hplan,
    Outcome.ok_bind, Traced.lift_outcome, Source.memory, hfetch, Query.pageRows_of_size hc hsize,
    Traced.pure_outcome, List.take_take]
  rw [Nat.min_eq_left (Nat.le_succ n)]

/-- The request for the first rows. -/
def Request.firstRows (r : Request) (n : ℕ) : Request :=
  r.paginated { Pagination.empty with first := .int n }

/-- The request for the last rows. -/
def Request.lastRows (r : Request) (n : ℕ) : Request :=
  r.paginated { Pagination.empty with last := .int n }

/-! ### Both directions -/

/-- The rows are sorted the other way round by the reversed keys. -/
theorem sortRows_reverse {cmp : Row → Row → Ordering} [TransCmp cmp] {xs : List Row}
    (h : ∀ a ∈ xs, ∀ b ∈ xs, compareRows aliases keys a.data b.data = .ok (cmp a b))
    (hfree : Strict.TieFree cmp xs) :
    sortRows aliases (keys.map SortKey.reverse) xs = .ok (Strict.sorted cmp xs).reverse := by
  have hopposite : TransCmp fun a b => cmp b a := TransCmp.opposite
  have hreversed : ∀ a ∈ xs, ∀ b ∈ xs,
      compareRows aliases (keys.map SortKey.reverse) a.data b.data = .ok (cmp b a) := by
    intro a ha b hb
    have hswap : cmp b a = (cmp a b).swap := Std.OrientedCmp.eq_swap
    rw [compareRows_reverse, h a ha b hb, hswap]
    rfl
  rw [sortRows_of_order hreversed, ← Strict.sorted_opposite hfree]
  rfl

/-- **The last rows are the end of the first ones.** Where no two of the rows that meet the filters tie,
they come in one order: a request for at least as many first rows as there are shows them all, and one
for the last rows the end of the same list. -/
theorem Query.rows_last
    (hnames : ∀ n ∈ r.orderNames, ∃ f, resolveField schema n = .ok f ∧ f.Orderable schema)
    (hpredicate : (r.predicate schema o).outcome = .ok p)
    (hanswers : ∀ row ∈ rows, ∃ t, p.evaluate aliases row.data = .ok t) :
    ∃ keys, r.sort.keys schema = .ok keys ∧
      ((∀ k ∈ keys, k.Orders aliases (matching aliases p rows)) →
        (matching aliases p rows).Pairwise
          (fun a b => compareRows aliases keys a.data b.data ≠ .ok .eq) →
        ∃ M : List Row, M.Perm (matching aliases p rows) ∧
          M.Pairwise (fun a b => compareRows aliases keys a.data b.data = .ok .lt) ∧
          (∀ m ≥ (matching aliases p rows).length,
            (Query.rows (.inMemory aliases rows schema o) (r.firstRows m)).outcome = .ok M ∧
            (Query.rows (.inMemory aliases rows schema o) (r.lastRows m)).outcome = .ok M) ∧
          ∀ n, (Query.rows (.inMemory aliases rows schema o) (r.lastRows n)).outcome =
            .ok (M.drop (M.length - n))) := by
  obtain ⟨keys, hkeys⟩ : ∃ keys, r.sort.keys schema = .ok keys := by
    refine SortOrder.exists_keys fun t ht => hnames _ ?_
    rw [← r.sort_names]
    exact List.mem_map_of_mem ht
  refine ⟨keys, hkeys, fun horders hfree => ?_⟩
  obtain ⟨cmp, _, hcmp⟩ := exists_compareRows horders
  have htieFree : Strict.TieFree cmp (matching aliases p rows) := by
    refine hfree.imp_of_mem fun {a b} ha hb hab htie => hab ?_
    rw [hcmp a ha b hb, htie]
  have hselect : selectRows aliases p rows = .ok (matching aliases p rows) :=
    selectRows_ok (Request.predicate_proper hpredicate) hanswers
  have hperm : (Strict.sorted cmp (matching aliases p rows)).Perm (matching aliases p rows) :=
    Strict.sorted_perm _
  have hfirst : ∀ n, (Query.rows (.inMemory aliases rows schema o) (r.firstRows n)).outcome =
      .ok ((Strict.sorted cmp (matching aliases p rows)).take n) := fun n =>
    Query.rows_of_cursor (r := r.firstRows n) rfl rfl rfl hpredicate hkeys hselect
      (sortRows_of_order hcmp)
  have hreversed : r.sort.reverse.keys schema = .ok (keys.map SortKey.reverse) := by
    rw [SortOrder.keys_reverse, hkeys]
    rfl
  have hlast : ∀ n, (Query.rows (.inMemory aliases rows schema o) (r.lastRows n)).outcome =
      .ok ((Strict.sorted cmp (matching aliases p rows)).drop
        ((Strict.sorted cmp (matching aliases p rows)).length - n)) := by
    intro n
    rw [Query.rows_of_cursor (r := r.lastRows n) rfl rfl rfl hpredicate hreversed hselect
      (sortRows_reverse hcmp htieFree)]
    -- The page turns the rows round again.
    refine congrArg Except.ok ?_
    have hbackward : (r.lastRows n).isBackward = true := rfl
    rw [if_pos hbackward, List.take_reverse, List.reverse_reverse]
  refine ⟨Strict.sorted cmp (matching aliases p rows), hperm, ?_, fun m hm => ?_, hlast⟩
  · refine (Strict.sorted_ascending htieFree).imp_of_mem fun {a b} ha hb hab => ?_
    rw [hcmp a (hperm.mem_iff.1 ha) b (hperm.mem_iff.1 hb), hab]
  · have hlength := hperm.length_eq
    rw [hfirst, hlast, List.take_of_length_le (by omega), Nat.sub_eq_zero_of_le (by omega)]
    exact ⟨rfl, rfl⟩

/-! ### Full names -/

/-- A row with the two parts of a name, either of which may be null. -/
def fullNameRow (family given : Value) : Value :=
  .record [("family", family), ("given", given)]

/-- Full names, the last one in the opposite order first. -/
def fullNames : List Row :=
  Row.collection [fullNameRow (.text "Roe") (.text "Bea"), fullNameRow (.text "Roe") .null,
    fullNameRow .null (.text "Ann")]

/-- A request ordered by a composite, from the greatest name down. -/
def Request.byFullName : Request :=
  ⟨[], some ["full"], some [.desc], .empty, none⟩

/-- The keys of this request, nulls first. -/
def fullNameKeys : List SortKey :=
  [⟨.plain "family", .desc⟩, ⟨.plain "given", .desc⟩]

theorem fullNames_descending : fullNames.Pairwise fun a b =>
    compareRows [] fullNameKeys a.data b.data = .ok .gt := by
  simp only [fullNames, Row.collection, List.zipIdx, List.map_cons, List.map_nil,
    List.pairwise_cons, List.forall_mem_cons, List.not_mem_nil, false_implies, implies_true,
    List.Pairwise.nil, and_true]
  refine ⟨⟨?_, ?_⟩, ?_⟩ <;> with_unfolding_all rfl

/-- The last full names are the end of the first ones. -/
theorem Query.rows_last_fullNames :
    (∀ n ∈ Request.byFullName.orderNames,
      ∃ f, resolveField (some .people) n = .ok f ∧ f.Orderable (some .people)) ∧
    (Request.byFullName.predicate (some .people) .unrestricted).outcome = .ok (.all []) ∧
    (∀ row ∈ fullNames, ∃ t, Predicate.evaluate [] row.data (.all []) = .ok t) ∧
    ∃ M : List Row, M.Perm (matching [] (.all []) fullNames) ∧
      M.Pairwise (fun a b => compareRows [] fullNameKeys a.data b.data = .ok .lt) ∧
      (∀ m ≥ (matching [] (.all []) fullNames).length,
        (Query.rows (.inMemory [] fullNames (some .people) .unrestricted)
          (Request.byFullName.firstRows m)).outcome = .ok M ∧
        (Query.rows (.inMemory [] fullNames (some .people) .unrestricted)
          (Request.byFullName.lastRows m)).outcome = .ok M) ∧
      ∀ n, (Query.rows (.inMemory [] fullNames (some .people) .unrestricted)
        (Request.byFullName.lastRows n)).outcome = .ok (M.drop (M.length - n)) := by
  have hnames : ∀ n ∈ Request.byFullName.orderNames,
      ∃ f, resolveField (some .people) n = .ok f ∧ f.Orderable (some .people) := by
    intro n hn
    rw [List.mem_singleton.1 hn]
    refine ⟨.composite "full" ["family", "given"], rfl, .composite "full" fun m hm => ?_⟩
    simp only [List.mem_cons, List.not_mem_nil, or_false] at hm
    rcases hm with rfl | rfl
    · exact ⟨.plain "family" .string, rfl, .inl rfl⟩
    · exact ⟨.plain "given" .string, rfl, .inl rfl⟩
  have hanswers : ∀ row ∈ fullNames, ∃ t, Predicate.evaluate [] row.data (.all []) = .ok t :=
    fun _ _ => ⟨_, rfl⟩
  have hpredicate : (Request.byFullName.predicate (some .people) .unrestricted).outcome =
      .ok (.all []) := rfl
  refine ⟨hnames, hpredicate, hanswers, ?_⟩
  obtain ⟨keys, hkeys, h⟩ := Query.rows_last hnames hpredicate hanswers
  obtain rfl : fullNameKeys = keys := Except.ok.inj hkeys
  have hall : matching [] (.all []) fullNames = fullNames := List.filter_eq_self.2 fun _ _ => rfl
  refine h (fun k hk => ?_) ?_
  · refine ⟨Kind.text.Has, Kind.totallyOrdered .text, fun row hrow => ?_⟩
    rw [hall] at hrow
    simp only [fullNames, Row.collection, List.zipIdx, List.map_cons, List.map_nil, List.mem_cons,
      List.not_mem_nil, or_false] at hrow
    simp only [fullNameKeys, List.mem_cons, List.not_mem_nil, or_false] at hk
    rcases hk with rfl | rfl <;> rcases hrow with rfl | rfl | rfl
    · exact ⟨_, rfl, .inr (.text (.whole "Roe"))⟩
    · exact ⟨_, rfl, .inr (.text (.whole "Roe"))⟩
    · exact ⟨_, rfl, .inl rfl⟩
    · exact ⟨_, rfl, .inr (.text (.whole "Bea"))⟩
    · exact ⟨_, rfl, .inl rfl⟩
    · exact ⟨_, rfl, .inr (.text (.whole "Ann"))⟩
  · rw [hall]
    exact fullNames_descending.imp fun hab heq => by simp [heq] at hab

end Sieve
