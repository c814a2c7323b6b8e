import Sieve.Proofs.Keyset.Onward
import Sieve.Proofs.Request.Navigation

/-!
# Looking ahead

A request for the first rows fetches one row more than the page holds, and says that there is a next page
if that row is there. So the row comes after the last one of the page, whichever token the request has. A
request without a number of rows fetches them all. It is said to have a next page as soon as there is any
row.

* `Page.CutFrom`, `Query.run_first_fetched`: what a page for the first rows is made of;
* `Request.TellsApart`: rows that the ordering of a request tells apart;
* `Request.TellsApart.sortRows_ok`: how selected rows are sorted;
* `Params.validateWith_looksAhead`: what it means that there is a next page, on requests that navigation
  leads to;
* `Params.toCursor_looksBehind`: a next page of which there is no row.
-/

namespace Sieve

variable {schema : Option Schema} {o : Options} {aliases : Aliases} {S : String → Value → Prop}
  {p : Predicate} {data : List Value} {rows : List Row} {r : Request}

/-! ### Selected rows -/

/-- What a test keeps was answered with yes. -/
theorem Outcome.sublist_of_filterM {ε α : Type} {f : α → Except ε Bool} {xs ys : List α}
    (h : xs.filterM f = .ok ys) : ys.Sublist (xs.filter fun x => (f x).toOption == some true) := by
  have hanswers : ∀ x ∈ xs, f x = .ok ((f x).toOption == some true) := by
    intro x hx
    obtain ⟨b, hb⟩ := Outcome.exists_answer_of_filterM h x hx
    rw [hb]
    cases b <;> rfl
  rw [Outcome.filterM_ok hanswers] at h
  cases h
  exact List.Sublist.refl _

namespace Predicate

variable {row : Value}

theorem evaluate_of_selects (hp : ∀ v, p ≠ .oddConst v) (h : p.selects aliases row = .ok true) :
    p.evaluate aliases row = .ok (some true) := by
  rw [selects_of_proper hp] at h
  obtain ⟨t, ht, htrue⟩ := Outcome.map_eq_ok_iff.1 h
  rw [ht, beq_iff_eq.1 htrue]

theorem holds_of_selects (hp : ∀ v, p ≠ .oddConst v) (h : p.selects aliases row = .ok true) :
    p.holds aliases row = true := by
  rw [holds_of_evaluate (evaluate_of_selects hp h)]
  rfl

/-- Whatever stands beside the filters, the rows that are selected meet them. -/
theorem holds_of_selects_and {q : Predicate} (hp : ∀ v, p ≠ .oddConst v)
    (h : (p.and q).selects aliases row = .ok true) : p.holds aliases row = true := by
  have hand := evaluate_of_selects (by simp [Predicate.and]) h
  rw [Predicate.and, evaluate, evaluateEach_cons hp] at hand
  obtain ⟨ts, hts, hall⟩ := Outcome.bind_eq_ok_iff.1 hand
  obtain ⟨t, ht, hts⟩ := Outcome.bind_eq_ok_iff.1 hts
  obtain ⟨us, _, hts⟩ := Outcome.bind_eq_ok_iff.1 hts
  cases hts
  rw [holds_of_evaluate ht, (Truth.all_eq_true_iff _).1 (Except.ok.inj hall) t (by simp)]
  rfl

end Predicate

/-- A plan selects matching rows only, also where it has a boundary. -/
theorem selectRows_sublist {q : Predicate} {selected : List Row} (hp : ∀ v, p ≠ .oddConst v)
    (hq : q = p ∨ ∃ b, q = p.and b) (h : selectRows aliases q rows = .ok selected) :
    selected.Sublist (matching aliases p rows) := by
  refine (Outcome.sublist_of_filterM h).trans (List.monotone_filter_right _ fun row hrow => ?_)
  have hselects : q.selects aliases row.data = .ok true := by
    cases hanswer : q.selects aliases row.data with
    | error e => simp [hanswer, Except.toOption] at hrow
    | ok b => simpa [hanswer, Except.toOption] using hrow
  rcases hq with rfl | ⟨b, rfl⟩
  · exact Predicate.holds_of_selects hp hselects
  · exact Predicate.holds_of_selects_and hp hselects

/-! ### Plans and pages -/

/-- The plan for rows after a cursor: the filters, with the boundary of the cursor if there is one. -/
theorem Request.plan_inv {plan : Plan} (hc : r.byCursor = true)
    (hpredicate : (r.predicate schema o).outcome = .ok p)
    (h : (r.plan schema o).outcome = .ok plan) :
    ∃ q keys limit, (q = p ∨ ∃ b, q = p.and b) ∧ r.direct.keys schema = .ok keys ∧
      r.sizeAndOne = .ok limit ∧ plan = ⟨q, keys, limit, .null, r.isBackward⟩ := by
  have hplan : (r.cursorPlan schema o).outcome = .ok plan := by
    simp only [Request.plan, hc, if_true, Traced.bind_outcome] at h
    obtain ⟨plan', hplan, h⟩ := Outcome.bind_eq_ok_iff.1 h
    obtain ⟨_, _, h⟩ := Outcome.bind_eq_ok_iff.1 h
    cases h
    exact hplan
  simp only [Request.cursorPlan, Traced.bind_outcome, hpredicate, Outcome.ok_bind,
    Traced.lift_outcome] at hplan
  obtain ⟨pivot, _, hplan⟩ := Outcome.bind_eq_ok_iff.1 hplan
  have hrest {q : Predicate} (h : (do
      let keys ← r.direct.keys schema
      let limit ← r.sizeAndOne
      return (⟨q, keys, limit, .null, r.isBackward⟩ : Plan)) = .ok plan) :
      ∃ keys limit, r.direct.keys schema = .ok keys ∧ r.sizeAndOne = .ok limit ∧
        plan = ⟨q, keys, limit, .null, r.isBackward⟩ := by
    obtain ⟨keys, hkeys, h⟩ := Outcome.bind_eq_ok_iff.1 h
    obtain ⟨limit, hlimit, h⟩ := Outcome.bind_eq_ok_iff.1 h
    cases h
    exact ⟨keys, limit, hkeys, hlimit, rfl⟩
  cases pivot with
  | none =>
    simp only [Traced.bind_outcome, Traced.lift_outcome, Traced.pure_outcome, Outcome.ok_bind] at hplan
    obtain ⟨keys, limit, hplan⟩ := hrest hplan
    exact ⟨p, keys, limit, .inl rfl, hplan⟩
  | some c =>
    rw [Traced.bind_outcome] at hplan
    obtain ⟨b, _, hplan⟩ := Outcome.bind_eq_ok_iff.1 hplan
    simp only [Traced.bind_outcome, Traced.lift_outcome, Traced.pure_outcome, Outcome.ok_bind] at hplan
    obtain ⟨keys, limit, hplan⟩ := hrest hplan
    exact ⟨p.and b, keys, limit, .inr ⟨b, rfl⟩, hplan⟩

/-- A page that was cut out of rows: it holds the first ones, up to its size, and has a next page if there
are more. -/
structure Page.CutFrom (page : Page) (r : Request) (fetched : List Row) : Prop where
  held : ∃ stop, r.size.position? = .ok stop ∧ page.rows = slice fetched 0 stop
  hasNext : ∃ more, r.sizeOrZero.precedes false (.int fetched.length) = .ok more ∧
    page.info.hasNext = .bool more

/-- **A page for the first rows** is cut out of what its plan fetches. -/
theorem Query.run_first_fetched {page : Page} (hfirst : r.strategy? = some .first)
    (h : (Query.run (.inMemory aliases rows schema o) r).outcome = .ok page) :
    ∃ plan fetched, (r.plan schema o).outcome = .ok plan ∧ fetch aliases rows plan = .ok fetched ∧
      page.CutFrom r fetched := by
  have hc : r.byCursor = true := by
    simp [Request.byCursor, hfirst, Strategy.byCursor]
  have hb : r.isBackward = false := by
    simp [Request.isBackward, hfirst]
  simp only [Query.run, Query.fetchPage, hc, if_true, Traced.bind_outcome] at h
  obtain ⟨⟨held, n⟩, hfetch, h⟩ := Outcome.bind_eq_ok_iff.1 h
  obtain ⟨plan, hplan, hfetch⟩ := Outcome.bind_eq_ok_iff.1 hfetch
  obtain ⟨fetched, hfetched, hfetch⟩ := Outcome.bind_eq_ok_iff.1 hfetch
  obtain ⟨held', hheld, hfetch⟩ := Outcome.bind_eq_ok_iff.1 hfetch
  cases hfetch
  obtain ⟨f, hf, h⟩ := Outcome.bind_eq_ok_iff.1 h
  obtain ⟨info, hinfo, h⟩ := Outcome.bind_eq_ok_iff.1 h
  obtain ⟨_, _, h⟩ := Outcome.bind_eq_ok_iff.1 h
  cases h
  have hheld : ∃ stop, r.size.position? = .ok stop ∧ held = slice fetched 0 stop := by
    rw [Traced.lift_outcome, Query.pageRows, if_pos hc] at hheld
    obtain ⟨stop, hstop, hheld⟩ := Outcome.bind_eq_ok_iff.1 hheld
    rw [hb] at hheld
    cases hheld
    exact ⟨stop, hstop, rfl⟩
  have hcount : f.fetched = .int fetched.length := by
    simp only [Query.cursorFindings, Traced.bind_outcome] at hf
    obtain ⟨_, _, hf⟩ := Outcome.bind_eq_ok_iff.1 hf
    obtain ⟨_, _, hf⟩ := Outcome.bind_eq_ok_iff.1 hf
    cases hf
    rfl
  have hinfo : ∃ more, r.sizeOrZero.precedes false (.int fetched.length) = .ok more ∧
      info.hasNext = .bool more := by
    have hof : Meta.of r f = Meta.ofCursor r f := if_pos hc
    rw [Traced.lift_outcome, hof, Meta.ofCursor] at hinfo
    obtain ⟨more, hmore, hinfo⟩ := Outcome.bind_eq_ok_iff.1 hinfo
    cases hinfo
    rw [hcount] at hmore
    exact ⟨more, hmore, by simp [hfirst]⟩
  exact ⟨plan, fetched, hplan, hfetched, hheld, hinfo⟩

/-! ### Numbers of rows -/

/-- **A number of rows that is at least one**, where it cuts a page out of the rows: one row more is fetched
than the page holds. -/
theorem Value.position_of_atLeast {v : Value} {stop : Option Int} (hleast : v.AtLeast 1)
    (h : v.position? = .ok stop) : ∃ k : ℕ, stop = some ((k + 1 : ℕ) : ℤ) ∧ v.truthy = true ∧
      v.isNull = false ∧ v.plus (.int 1) = .ok (.int (k + 2 : ℕ)) ∧
      ∀ m : ℕ, v.precedes false (.int m) = .ok (decide (k + 1 < m)) := by
  have hint (k : ℕ) (m : ℕ) :
      (Value.int (k + 1 : ℕ)).precedes false (.int m) = .ok (decide (k + 1 < m)) := by
    rw [Value.precedes_int_eq]
    exact congrArg Except.ok (decide_eq_decide.2 (by omega))
  cases v with
  | int i =>
    rw [Value.AtLeast, Validation.precedes_le_int, Except.ok.injEq, decide_eq_true_iff] at hleast
    obtain ⟨k, rfl⟩ : ∃ k : ℕ, i = (k + 1 : ℕ) := ⟨(i - 1).toNat, by omega⟩
    cases h
    refine ⟨k, rfl, bne_iff_ne.2 (by omega), rfl, ?_, hint k⟩
    rw [Value.plus_int]
    rfl
  | bool b =>
    cases b with
    | true =>
      cases h
      have halike (m : ℕ) : (Value.bool true).precedes false (.int m) =
          (Value.int (0 + 1 : ℕ)).precedes false (.int m) := by
        rw [Value.precedes_of_number (a := .bool true) rfl rfl,
          Value.precedes_of_number (a := .int (0 + 1 : ℕ)) rfl rfl]
        rfl
      exact ⟨0, rfl, rfl, rfl, rfl, fun m => (halike m).trans (hint 0 m)⟩
    | false => cases hleast
  | null => exact absurd rfl hleast.ne_null
  | _ => cases h

/-! ### Rows that are told apart -/

/-- Filters and an ordering of columns, for which the matching rows have values that are not null, of totally
ordered types, and not all equal for any two of them. -/
structure Request.TellsApart (r : Request) (schema : Option Schema) (o : Options) (aliases : Aliases)
    (S : String → Value → Prop) (p : Predicate) (data : List Value) : Prop where
  direct : Ranking.Direct schema r.orderNames
  total : ∀ n ∈ r.orderNames, Value.TotallyOrdered (S n)
  predicate : (r.predicate schema o).outcome = .ok p
  filled : ∀ row ∈ data, p.holds aliases row = true → Ranking.Filled schema S r.orderNames row
  distinct : (data.filter (p.holds aliases)).Pairwise fun a b =>
    ∃ n ∈ r.orderNames, ∃ v w, sortValue schema n a = .ok v ∧ sortValue schema n b = .ok w ∧
      v.equal w = .ok false

/-- The ordering of a ranked collection does. -/
theorem Request.Ranked.tellsApart (h : r.Ranked schema o aliases S p data) :
    r.TellsApart schema o aliases S p data where
  direct := h.direct
  total := h.total
  predicate := h.predicate
  filled _ := h.filled_of_holds
  distinct := h.distinct

namespace Request.TellsApart

variable (h : r.TellsApart schema o aliases S p data)
include h

/-- No value of a matching row to sort by is null. -/
theorem filled_sort {row : Row} (hrow : row ∈ matching aliases p (Row.collection data)) :
    Ranking.Filled schema S r.sort.names row.data := by
  obtain ⟨hdata, hholds⟩ := Row.data_mem_of_matching hrow
  simpa using h.filled _ hdata hholds

/-- Selected rows are sorted strictly. -/
theorem sortRows_ok (hs : Schema.HasPaths schema) {selected : List Row}
    (hselected : selected.Sublist (matching aliases p (Row.collection data))) :
    ∃ sorted, sortRows aliases (r.sort.map (Ranking.typed schema S).key) selected = .ok sorted ∧
      Strict.Ascending ((Ranking.typed schema S).rowOrder r.sort) sorted ∧
      ∀ row ∈ sorted, row ∈ matching aliases p (Row.collection data) := by
  have hdistinct := h.distinct
  rw [← map_data_matching, List.pairwise_map] at hdistinct
  have hapart := Ranking.tieFree_of_distinct (by simpa using h.total) (fun _ => h.filled_sort)
    (by simpa using hdistinct)
  refine ⟨Strict.sorted ((Ranking.typed schema S).rowOrder r.sort) selected,
    sortRows_of_order fun a ha b hb => ?_, Strict.sorted_ascending (hapart.sublist hselected),
    fun row hrow => hselected.subset (Strict.mem_sorted.1 hrow)⟩
  exact Ranking.compareRows_filled hs (by simpa using h.direct) (by simpa using h.total)
    (h.filled_sort (hselected.subset ha)) (h.filled_sort (hselected.subset hb))

end Request.TellsApart

/-! ### Next pages -/

namespace Query

variable {page : Page} (hs : Schema.HasPaths schema) (hfirst : r.strategy? = some .first)
  (h : r.TellsApart schema o aliases S p data)
  (hrun : (run (.inMemory aliases (Row.collection data) schema o) r).outcome = .ok page)
include hs hfirst h hrun

/-- The rows that a page is cut out of: all rows that its plan selects, in strictly ascending order. -/
theorem run_first_sorted : ∃ sorted limit fetched,
    Strict.Ascending ((Ranking.typed schema S).rowOrder r.sort) sorted ∧
      (∀ row ∈ sorted, row ∈ matching aliases p (Row.collection data)) ∧
      r.sizeAndOne = .ok limit ∧ window sorted limit .null = .ok fetched ∧
      page.CutFrom r fetched := by
  have hc : r.byCursor = true := by
    simp [Request.byCursor, hfirst, Strategy.byCursor]
  have hdirect : r.direct = r.sort := by
    simp [Request.direct, Request.isBackward, hfirst]
  obtain ⟨plan, fetched, hplan, hfetch, hcut⟩ := run_first_fetched hfirst hrun
  obtain ⟨q, keys, limit, hq, hkeys, hlimit, rfl⟩ := Request.plan_inv hc h.predicate hplan
  have hsort : r.sort.keys schema = .ok (r.sort.map (Ranking.typed schema S).key) :=
    Ranking.keys_ok (Ranking.locates_typed (by simpa using h.direct))
  rw [hdirect, hsort] at hkeys
  cases hkeys
  obtain ⟨selected, hselected, hfetch⟩ := Outcome.bind_eq_ok_iff.1 hfetch
  obtain ⟨sorted, hsorted, hascending, hmem⟩ :=
    h.sortRows_ok hs (selectRows_sublist (Request.predicate_proper h.predicate) hq hselected)
  rw [hsorted, Outcome.ok_bind] at hfetch
  exact ⟨sorted, limit, fetched, hascending, hmem, hlimit, hfetch, hcut⟩

/-- **A page with a size says truly that there is a next page**: a matching row comes after its last
one. -/
theorem looksAhead_sized (hsize : r.size.AtLeast 1) (hnext : page.info.hasNext = .bool true) :
    ∃ last, page.rows.getLast? = some last ∧ last ∈ matching aliases p (Row.collection data) ∧
      ∃ row ∈ matching aliases p (Row.collection data),
        (Ranking.typed schema S).compare r.sort last.data row.data = .lt := by
  obtain ⟨sorted, limit, fetched, hascending, hmem, hlimit, hfetched,
    ⟨stop, hstop, hrows⟩, more, hmore, hmore'⟩ := run_first_sorted hs hfirst h hrun
  obtain ⟨k, rfl, htruthy, hnull, hplus, hprecedes⟩ := Value.position_of_atLeast hsize hstop
  cases hmore'.symm.trans hnext
  rw [Request.sizeAndOne, if_neg (by simp [hnull]), hplus] at hlimit
  cases hlimit
  rw [Ranking.window_ofNat] at hfetched
  cases hfetched
  rw [Request.sizeOrZero, if_pos htruthy, hprecedes, Except.ok.injEq, decide_eq_true_iff,
    List.length_take] at hmore
  have hheld : page.rows = sorted.take (k + 1) := by
    have hslice := slice_ofNat (sorted.take (k + 2)) 0 (k + 1)
    simp only [Nat.cast_zero, Nat.zero_add, List.drop_zero] at hslice
    rw [hrows, hslice, List.take_take, Nat.min_eq_left (Nat.le_succ _)]
  have hfull : page.rows ≠ [] := by
    rw [hheld]
    exact List.ne_nil_of_length_pos (by rw [List.length_take]; omega)
  obtain ⟨last, hlast⟩ : ∃ last, page.rows.getLast? = some last :=
    ⟨_, List.getLast?_eq_some_getLast hfull⟩
  have hnext : sorted[k + 1] ∈ sorted.drop (k + 1) := by
    rw [← List.getElem_cons_drop (by omega)]
    exact List.mem_cons_self
  have hmatching : last ∈ matching aliases p (Row.collection data) := by
    have hlast := List.mem_of_getLast? hlast
    rw [hheld] at hlast
    exact hmem _ (List.mem_of_mem_take hlast)
  refine ⟨last, hlast, hmatching, sorted[k + 1], hmem _ (List.getElem_mem _), ?_⟩
  rw [hheld] at hlast
  exact (hascending.last hlast).2 _ hnext

/-- A page without a size is said to have a next page where it holds anything. -/
theorem looksAhead_unsized (hsize : r.size = .null) :
    page.info.hasNext = .bool true ↔ page.rows ≠ [] := by
  obtain ⟨sorted, limit, fetched, hascending, hmem, hlimit, hfetched,
    ⟨stop, hstop, hrows⟩, more, hmore, hmore'⟩ := run_first_sorted hs hfirst h hrun
  rw [hsize] at hstop
  cases hstop
  rw [Request.sizeAndOne, hsize] at hlimit
  cases hlimit
  rw [window_null] at hfetched
  cases hfetched
  have hheld : page.rows = sorted := by
    rw [hrows]
    simp [slice, clampIndex]
  rw [Request.sizeOrZero, hsize, if_neg (by decide), Value.precedes_int_eq] at hmore
  cases hmore
  rw [hmore', hheld]
  simp [List.length_pos_iff]

end Query

/-! ### All rows behind a row -/

/-- The request for all rows after a token, by their numbers. -/
def Request.behindById (token : String) : Request :=
  ⟨[], some ["id"], none, { Pagination.empty with after := .text token }, none⟩

/-- Two rows with numbers. -/
def Query.onTwoRows : Query :=
  .inMemory [] (Row.collection ([1, 2].map numberedRow)) (some .numbers) .unrestricted

section Behind

variable {token : String} (hdecode : Cursor.decode token = .ok (Cursor.raw [("id", .int 1)]))
include hdecode

theorem Request.pivot_behindById : (behindById token).pivot = .ok (some [("id", .int 1)]) :=
  pivot_of_token rfl hdecode (.inl rfl)

/-- There is one row after the first one. -/
theorem Query.fetchPage_behindById :
    (onTwoRows.fetchPage (.behindById token)).outcome = .ok ([⟨1, numberedRow 2⟩], 1) := by
  obtain ⟨plan, hplan, hfetch⟩ : ∃ plan,
      ((Request.behindById token).plan (some .numbers) .unrestricted).outcome = .ok plan ∧
        fetch [] (Row.collection ([1, 2].map numberedRow)) plan = .ok [⟨1, numberedRow 2⟩] := by
    simp only [Request.plan, Request.cursorPlan, Request.pivot_behindById hdecode]
    refine ⟨_, rfl, ?_⟩
    with_unfolding_all rfl
  simp only [fetchPage, onTwoRows, inMemory, Source.memory, Traced.bind_outcome, hplan, Outcome.ok_bind,
    Traced.lift_outcome, hfetch]
  rfl

/-- There are rows on the other side, too. -/
theorem Query.cursorFindings_behindById : ∃ mark,
    (onTwoRows.cursorFindings (.behindById token) [⟨1, numberedRow 2⟩] 1).outcome =
      .ok ⟨.null, .int 1, .text mark, .text mark, .bool true⟩ := by
  obtain ⟨_, mark, _, hmark, _⟩ := (@survives_numberedRow [2] (by decide)
    (numberedRow 2) (by simp) rfl).token
  have hends : Cursor.ends onTwoRows.schema onTwoRows.options.cursorFunction
      (Request.behindById token).orderNames ([(⟨1, numberedRow 2⟩ : Row)].map (·.data)) =
        .ok (some (mark, mark)) := by
    have htoken : Cursor.tokenOf onTwoRows.schema onTwoRows.options.cursorFunction
        (Request.behindById token).orderNames (numberedRow 2) = .ok mark := hmark
    simp only [List.map, Cursor.ends, List.getLastD_nil, htoken, Outcome.ok_bind]
    rfl
  have hbeyond : (onTwoRows.beyond (.behindById token)).outcome = .ok true := by
    simp only [beyond, Request.lookback, Request.pivot_behindById hdecode]
    with_unfolding_all rfl
  refine ⟨mark, ?_⟩
  rw [cursorFindings, Traced.bind_outcome, Traced.lift_outcome, hends, Outcome.ok_bind,
    Traced.bind_outcome, hbeyond]
  rfl

theorem Query.run_behindById : ∃ page, (onTwoRows.run (.behindById token)).outcome = .ok page ∧
    page.rows = [⟨1, numberedRow 2⟩] ∧ page.info.hasNext = .bool true := by
  obtain ⟨mark, hfindings⟩ := cursorFindings_behindById hdecode
  have hc : (Request.behindById token).byCursor = true := rfl
  obtain ⟨info, hinfo, hnext⟩ : ∃ info, Meta.of (.behindById token)
      ⟨.null, .int 1, .text mark, .text mark, .bool true⟩ = .ok info ∧ info.hasNext = .bool true :=
    ⟨_, rfl, rfl⟩
  refine ⟨⟨[⟨1, numberedRow 2⟩], info⟩, ?_, rfl, hnext⟩
  simp only [run, hc, if_true, Traced.bind_outcome, fetchPage_behindById hdecode, Outcome.ok_bind,
    hfindings, Traced.lift_outcome, hinfo]
  rfl

end Behind

/-! ### Valid requests -/

namespace Params

open Checking Validation Query

variable {start : Request} {params : Params} {page : Page}

/-- Navigation from a valid request keeps the number of rows. -/
theorem size_of_navigates (h : (params.validateWith schema o).outcome = .ok start)
    (hnavigates : Relation.ReflTransGen Request.Navigates start r) : r.size = start.size := by
  obtain ⟨es, _, h⟩ := validateWith_eq_ok_iff.1 h
  obtain ⟨given, used, _, hused, _, _, hpagination⟩ := clean_request_iff.1 h
  have hsettled := (pagination_settled hused hpagination).1
  exact (Request.carries_of_navigates ⟨hsettled.form, rfl, .inr ⟨rfl, rfl⟩⟩ hnavigates).size

/-- **A next page is there if rows were asked for by number.** However navigation from a valid request leads
to a request for the first rows, also behind a token: if it is said to have a next page, some matching row
comes after its last one, as long as the valid request had a number of rows. If it had none, only an empty
page is said to have no next one. -/
theorem validateWith_looksAhead (hs : ∀ s ∈ schema, ∃ d, Schema.declare d = .ok s)
    (hvalid : (params.validateWith schema o).outcome = .ok start)
    (hnavigates : Relation.ReflTransGen Request.Navigates start r)
    (hfirst : r.strategy? = some .first) (h : r.TellsApart schema o aliases S p data)
    (hrun : (Query.run (.inMemory aliases (Row.collection data) schema o) r).outcome = .ok page) :
    ∃ keys, r.sort.keys schema = .ok keys ∧
      (start.size.AtLeast 1 → page.info.hasNext = .bool true →
        ∃ last, page.rows.getLast? = some last ∧
          ∃ row ∈ data, p.holds aliases row = true ∧
            compareRows aliases keys last.data row = .ok .lt) ∧
      (start.size = .null → (page.info.hasNext = .bool true ↔ page.rows ≠ [])) := by
  have hpaths : Schema.HasPaths schema := Schema.hasPaths_of_declared hs
  have hsize := size_of_navigates hvalid hnavigates
  refine ⟨r.sort.map (Ranking.typed schema S).key,
    Ranking.keys_ok (Ranking.locates_typed (by simpa using h.direct)), fun hleast hnext => ?_,
    fun hnull => Query.looksAhead_unsized hpaths hfirst h hrun (hsize.trans hnull)⟩
  obtain ⟨last, hlast, hheld, row, hrow, hlt⟩ :=
    Query.looksAhead_sized hpaths hfirst h hrun (hsize ▸ hleast) hnext
  obtain ⟨hdata, hholds⟩ := Row.data_mem_of_matching hrow
  refine ⟨last, hlast, row.data, hdata, hholds, ?_⟩
  rw [Ranking.compareRows_filled hpaths (by simpa using h.direct) (by simpa using h.total)
    (h.filled_sort hheld) (h.filled_sort hrow), hlt]

/-- The first of two rows by their numbers is all that a page of one row holds. It has a next page. -/
theorem validateWith_looksAhead_numberedRow :
    Schema.declare .numbers = .ok .numbers ∧
    ∃ start r, ((Params.page Query.byId 1 .null).validateWith (some .numbers) .unrestricted).outcome =
        .ok start ∧ start.size.AtLeast 1 ∧
      Relation.ReflTransGen Request.Navigates start r ∧ r.strategy? = some .first ∧
      r.TellsApart (some .numbers) .unrestricted [] (fun _ => Kind.integer.Has) (.all [])
        ([1, 2].map numberedRow) ∧
      ∃ page keys, (Query.onTwoRows.run r).outcome = .ok page ∧ page.info.hasNext = .bool true ∧
        r.sort.keys (some .numbers) = .ok keys ∧
        ∃ last, page.rows.getLast? = some last ∧
          ∃ row ∈ [1, 2].map numberedRow, Predicate.holds [] (.all []) row = true ∧
            compareRows [] keys last.data row = .ok .lt := by
  have hranked := Query.ranked_byId (show [(1 : Int), 2].Nodup by decide)
  have hvalid : ((Params.page Query.byId 1 .null).validateWith (some .numbers)
      .unrestricted).outcome = .ok .firstById := rfl
  have hleast : Request.firstById.size.AtLeast 1 := precedes_le_int 1 1
  have hnavigates : Relation.ReflTransGen Request.Navigates .firstById
      (Request.firstById.toCursor .null true) := .single (.toCursor _ _ _)
  have hrows : (Request.firstById.toCursor .null true).TellsApart (some .numbers) .unrestricted []
      (fun _ => Kind.integer.Has) (.all []) ([1, 2].map numberedRow) := { hranked.tellsApart with }
  have hmarks : Cursor.Marks (some .numbers) ["id"] none .null := rfl
  obtain ⟨page, hrun, hshows⟩ := hranked.run_marked setting_byId.hasPaths rfl
    (survives_numberedRow (by decide)) (by simp) hmarks 1
  have hnext : page.info.hasNext = .bool true := by
    have hlength : ((Ranking.typed (some .numbers) fun _ => Kind.integer.Has).candidates []
        Request.firstById.sort (.all []) (Row.collection ([1, 2].map numberedRow)) none).length = 2 :=
      Strict.length_sorted _
    rw [hshows.hasNext]
    exact congrArg (fun n => Value.bool (decide (1 < n))) hlength
  obtain ⟨keys, hkeys, hsized, _⟩ := validateWith_looksAhead (by rintro s ⟨⟩; exact ⟨.numbers, rfl⟩)
    hvalid hnavigates rfl hrows hrun
  exact ⟨rfl, _, _, hvalid, hleast, hnavigates, rfl, hrows, page, keys, hrun, hnext, hkeys,
    hsized hleast hnext⟩

/-- **A next page of which there is no row**: all rows after the first one are asked for. The second one is
all there is, and is said to have a next page. -/
theorem toCursor_looksBehind :
    Schema.declare .numbers = .ok .numbers ∧
    ∃ start r, ((entries byNumber).validateWith (some .numbers) .unrestricted).outcome = .ok start ∧
      start.size = .null ∧ Relation.ReflTransGen Request.Navigates start r ∧
      r.strategy? = some .first ∧
      r.TellsApart (some .numbers) .unrestricted [] (fun _ => Kind.integer.Has) (.all [])
        ([1, 2].map numberedRow) ∧
      ∃ page keys, (Query.onTwoRows.run r).outcome = .ok page ∧ page.info.hasNext = .bool true ∧
        r.sort.keys (some .numbers) = .ok keys ∧ page.rows.getLast? = some ⟨1, numberedRow 2⟩ ∧
        ∀ row ∈ [1, 2].map numberedRow, compareRows [] keys (numberedRow 2) row ≠ .ok .lt := by
  obtain ⟨token, hdecode⟩ := exists_tokenOfOne "id"
  obtain ⟨page, hrun, hrows, hnext⟩ := Query.run_behindById hdecode
  have hranked := Query.ranked_byId (show [(1 : Int), 2].Nodup by decide)
  refine ⟨rfl, _, .behindById token, rfl, rfl, .single (.toCursor _ (.text token) true), rfl,
    { hranked.tellsApart with }, page, _, hrun, hnext, rfl, by rw [hrows]; rfl, ?_⟩
  have hfirst : compareRows [] [⟨.of "id" none none [] false, .asc⟩] (numberedRow 2) (numberedRow 1) =
      .ok .gt := by with_unfolding_all rfl
  have hsecond : compareRows [] [⟨.of "id" none none [] false, .asc⟩] (numberedRow 2) (numberedRow 2) =
      .ok .eq := by with_unfolding_all rfl
  simp only [List.map, List.forall_mem_cons]
  exact ⟨ne_of_eq_of_ne hfirst (by simp), ne_of_eq_of_ne hsecond (by simp), by simp⟩

end Params

end Sieve
