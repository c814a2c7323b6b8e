import Sieve.Proofs.Number.Quotient
import Sieve.Proofs.Paging.Arrangement

/-!
# Pages of an arrangement

A request for a page and one for an offset are both turned into a place in the arrangement and a number
of rows. The answer depends on nothing else: it holds the rows from this place on, and its data follow
from the place, the number of rows and the number of all rows that meet the filters.

* `Request.onPage`, `Request.fromOffset`: the two kinds of requests;
* `Request.Cuts`: both ask for some rows from some place on;
* `Query.run_cuts_alike`: only the request that is repeated in the answer tells them apart;
* `Meta.pagesFor`: the number of pages as the program computes it;
* `Meta.ofPlace`, `Meta.paged_nat`: the data for any place, once pages are counted;
* `Query.run_cut`: the answer, for all places where a page begins.
-/

namespace Sieve

variable {schema : Option Schema} {aliases : Aliases} {o : Options} {p : Predicate}
  {keys : List SortKey} {rows : List Row} {r a b : Request} {offset size : ℤ} {i s t : ℕ}

/-! ### Requests -/

namespace Request

/-- The request for a page of some size. -/
def onPage (r : Request) (page size : ℤ) : Request :=
  r.paginated { Pagination.empty with page := .int page, pageSize := .int size }

/-- The request for some rows from an offset on. -/
def fromOffset (r : Request) (offset size : ℤ) : Request :=
  r.paginated { Pagination.empty with limit := .int size, offset := .int offset }

/-- The request has the filters and the ordering of another one, and asks for some rows from an offset
on. -/
structure Cuts (a r : Request) (offset size : ℤ) : Prop where
  filters : a.filters = r.filters
  sort : a.sort = r.sort
  byCursor : a.byCursor = false
  size : a.size = .int size
  skip : a.skip = .ok (.int offset)

theorem onPage_cuts (r : Request) (page size : ℤ) :
    (r.onPage page size).Cuts r ((page - 1) * size) size where
  filters := rfl
  sort := rfl
  byCursor := rfl
  size := rfl
  skip := Pagination.skip_page rfl rfl

theorem fromOffset_cuts (r : Request) (offset size : ℤ) :
    (r.fromOffset offset size).Cuts r offset size where
  filters := rfl
  sort := rfl
  byCursor := rfl
  size := rfl
  skip := rfl

/-- An offset of zero counts like one that is not given. -/
theorem Cuts.skipOrZero (h : a.Cuts r offset size) : a.skipOrZero = .ok (.int offset) := by
  rw [Request.skipOrZero, h.skip]
  by_cases hzero : offset = 0
  · rw [hzero]
    rfl
  · simp [Value.truthy, hzero]

theorem Cuts.predicate_eq (h : a.Cuts r offset size) (schema : Option Schema) (o : Options) :
    a.predicate schema o = r.predicate schema o := by
  rw [predicate, predicate, h.filters]

/-- The plan asks for the rows from the offset on. -/
theorem Cuts.plan_outcome (h : a.Cuts r offset size) (schema : Option Schema) (o : Options) :
    (a.plan schema o).outcome = do
      let p ← (r.predicate schema o).outcome
      let keys ← r.sort.keys schema
      return ⟨p, keys, .int size, .int offset, false⟩ := by
  have hplan : (a.plan schema o).outcome = (a.offsetPlan schema o).outcome := by
    simp only [plan, h.byCursor, Bool.false_eq_true, if_false, Traced.bind_outcome]
    cases (a.offsetPlan schema o).outcome <;> rfl
  rw [hplan]
  simp only [offsetPlan, Traced.bind_outcome, Traced.lift_outcome, h.predicate_eq, h.sort, h.size,
    h.skip, Outcome.ok_bind, Traced.pure_outcome, Outcome.pure_eq_ok]

end Request

/-! ### Answers -/

/-- The data about a result without the request that is repeated in them. -/
def Meta.unechoed (m : Meta) : Meta := { m with request := .all }

/-- The page without the request that is repeated in it. -/
def Page.unechoed (page : Page) : Page := ⟨page.rows, page.info.unechoed⟩

/-- The page of a request: the rows of its plan, and the data that follow from their number. -/
theorem Query.run_cuts (q : Query) (h : a.Cuts r offset size) :
    (q.run a).outcome = do
      let p ← (r.predicate q.schema q.options).outcome
      let keys ← r.sort.keys q.schema
      let fetched ← q.source.fetch ⟨p, keys, .int size, .int offset, false⟩
      let count ← q.source.count p
      return ⟨fetched, ← Meta.ofOffset a (.int count)⟩ := by
  have hcursor : a.strategy?.any Strategy.byCursor = false := h.byCursor
  have hmeta : ∀ n : ℕ, Meta.of a ⟨.int n, .int 0, .null, .null, .bool false⟩ =
      Meta.ofOffset a (.int n) := by
    intro n
    rw [Meta.of, hcursor]
    cases n <;> rfl
  simp only [Query.run, Query.fetchPage, Query.countFindings, Query.count, Query.pageRows,
    h.byCursor, Bool.false_eq_true, if_false, Traced.bind_outcome, h.plan_outcome, h.predicate_eq,
    Traced.lift_outcome, Traced.pure_outcome]
  cases (r.predicate q.schema q.options).outcome with
  | error e => rfl
  | ok p =>
    cases r.sort.keys q.schema with
    | error e => rfl
    | ok keys =>
      simp only [Outcome.ok_bind, Outcome.pure_eq_ok]
      cases q.source.fetch ⟨p, keys, .int size, .int offset, false⟩ with
      | error e => rfl
      | ok fetched =>
        simp only [Outcome.ok_bind]
        cases q.source.count p with
        | error e => rfl
        | ok n =>
          simp only [Outcome.ok_bind, hmeta]
          cases Meta.ofOffset a (.int n) <;> rfl

/-- The data follow from the offset and the number of rows. -/
theorem Meta.ofOffset_alike (ha : a.Cuts r offset size) (hb : b.Cuts r offset size) (count : Value) :
    Meta.unechoed <$> Meta.ofOffset a count = Meta.unechoed <$> Meta.ofOffset b count := by
  simp only [Meta.ofOffset, ha.skipOrZero, hb.skipOrZero, ha.size, hb.size, Outcome.ok_bind,
    map_bind]
  congr 1
  funext pages
  split
  · simp only [Meta.paged, map_bind]
    rfl
  · simp only [Meta.unpaged, map_bind]
    rfl

/-- **A page and an offset are answered alike**, by any source of rows. -/
theorem Query.run_cuts_alike (q : Query) (ha : a.Cuts r offset size) (hb : b.Cuts r offset size) :
    Page.unechoed <$> (q.run a).outcome = Page.unechoed <$> (q.run b).outcome := by
  have hinfo : ∀ (fetched : List Row) (n : ℕ),
      (Page.unechoed <$> do return (⟨fetched, ← Meta.ofOffset a (.int n)⟩ : Page)) =
        Page.unechoed <$> do return (⟨fetched, ← Meta.ofOffset b (.int n)⟩ : Page) := by
    intro fetched n
    have halike := Meta.ofOffset_alike ha hb (.int n)
    revert halike
    cases Meta.ofOffset a (.int n) <;> cases Meta.ofOffset b (.int n) <;> intro halike <;>
      first
        | cases halike
          rfl
        | exact congrArg (Except.map (Page.mk fetched)) halike
  simp only [q.run_cuts ha, q.run_cuts hb, map_bind] at hinfo ⊢
  simp only [hinfo]

/-! ### The arithmetic of pages -/

namespace Meta

/-- The number of pages of `s` rows that the program computes for `t` rows. It is the quotient rounded
up, but zero where the quotient is rounded to zero before. -/
def pagesFor (t s : ℕ) : ℕ := if s < t * Binary64.underflow then upward t s else 0

/-- The data of the page that `i` pages of `s` rows precede, for `t` rows in all. -/
def ofPage (r : Request) (i s t : ℕ) : Meta :=
  let more := decide ((i + 1) * s < t)
  { bare r with
    hasNext := .bool more
    hasPrevious := .bool (decide (0 < i))
    currentOffset := .int (i * s : ℕ)
    currentPage := .int (i + 1 : ℕ)
    nextOffset := if more then .int ((i + 1) * s : ℕ) else .null
    nextPage := if more then .int (i + 2 : ℕ) else .null
    previousOffset := if 0 < i then .int ((i - 1) * s : ℕ) else .null
    previousPage := if 0 < i then .int i else .null
    pageSize := .int s
    totalCount := .int t
    totalPages := .int (pagesFor t s) }

/-- Every page but the first one names the page in front of it. -/
theorem ofPage_succ (r : Request) (i s t : ℕ) :
    (ofPage r (i + 1) s t).previousPage = .int (i + 1 : ℕ) ∧
      (ofPage r (i + 1) s t).previousOffset = .int (i * s : ℕ) := by
  simp only [ofPage, if_pos i.succ_pos, Nat.add_sub_cancel, and_self]

/-- Where there is a page after the first one, the pages are counted as they should. -/
theorem pagesFor_eq (hlt : s < t) : pagesFor t s = upward t s :=
  if_pos (hlt.trans_le (Nat.le_mul_of_pos_right t (Nat.zero_lt_of_lt Binary64.one_lt_underflow)))

/-- Pages are counted by dividing, also where there are no rows. -/
theorem pagesOf_quotient (t : ℕ) (hs : 0 < s) :
    pagesOf (.int t) (.int s) = Value.int <$> (Value.int t).ceilQuotient (.int s) := by
  rcases Nat.eq_zero_or_pos t with rfl | hpos
  · have hnone := Value.ceilQuotient_mul (q := 0) hs (by omega)
    rw [Nat.zero_mul] at hnone
    rw [hnone]
    exact pagesOf_zero (.int s)
  · have hequal : (Value.int t).equal (.int 0) = .ok false := by
      rw [Value.equal_int, beq_eq_false_iff_ne.2 (by omega)]
    have htruthy : (Value.int s).truthy = true := bne_iff_ne.2 (by omega)
    simp only [pagesOf, hequal, Outcome.ok_bind, Bool.false_eq_true, if_false, htruthy,
      Bool.not_true]
    rfl

theorem pagesOf_nat (hs : 0 < s) (ht : t < 2 ^ 53) :
    pagesOf (.int t) (.int s) = .ok (.int (pagesFor t s)) := by
  rw [pagesOf_quotient t hs, Value.ceilQuotient_nat hs ht]
  rfl

/-- The number of a page is the number of pages in front of it and one, between one and the number of
pages. -/
theorem pageOf_quotient {offset current : ℕ} (pages : ℕ)
    (h : (Value.int offset).ceilQuotient (.int s) = .ok current) :
    pageOf (.int offset) (.int s) (.int pages) =
      .ok (.int (if pages = 0 then 1 else max 1 (min (current + 1) pages) : ℕ)) := by
  rw [pageOf, h, Outcome.ok_bind]
  by_cases hzero : pages = 0
  · rw [hzero]
    rfl
  · have htruthy : (Value.int pages).truthy = true := bne_iff_ne.2 (by omega)
    rw [if_pos htruthy, if_neg hzero, Value.atMost_int, Outcome.ok_bind, Value.atLeast_int]
    refine congrArg (Except.ok ∘ Value.int) ?_
    omega

/-- The place where a page begins is on this page. -/
theorem pageOf_nat (hs : 0 < s) (ht : t < 2 ^ 53) (hi : i = 0 ∨ i * s < t) :
    pageOf (.int (i * s : ℕ)) (.int s) (.int (pagesFor t s)) = .ok (.int (i + 1 : ℕ)) := by
  have hplace : i * s < 2 ^ 53 := by
    rcases hi with rfl | hi
    · rw [Nat.zero_mul]
      exact Nat.two_pow_pos 53
    · exact hi.trans ht
  have hcounted : pagesFor t s = 0 ∧ i = 0 ∨ i + 1 ≤ pagesFor t s := by
    rcases Nat.lt_or_ge s (t * Binary64.underflow) with hsmall | htiny
    · rw [pagesFor, if_pos hsmall]
      rcases hi with rfl | hi
      · exact .inr (upward_pos hs (Nat.pos_of_mul_pos_right (Nat.zero_lt_of_lt hsmall)))
      · exact .inr ((lt_upward_iff hs).2 hi)
    · -- Pages are counted as none only where the first page holds everything.
      refine .inl ⟨if_neg (not_lt.2 htiny), ?_⟩
      by_contra hne
      have hlt : s < t :=
        (Nat.le_mul_of_pos_left s (Nat.pos_of_ne_zero hne)).trans_lt (hi.resolve_left hne)
      have hle : t ≤ t * Binary64.underflow :=
        Nat.le_mul_of_pos_right t (Nat.zero_lt_of_lt Binary64.one_lt_underflow)
      omega
  rw [pageOf_quotient (pagesFor t s) (Value.ceilQuotient_mul hs hplace)]
  refine congrArg (Except.ok ∘ Value.int ∘ Nat.cast) ?_
  split <;> omega

theorem onlyIf_ok {c : Prop} [Decidable c] {x : Except Error Value} {v : Value}
    (h : c → x = .ok v) : onlyIf (decide c) x = .ok (if c then v else .null) := by
  by_cases hc : c
  · rw [if_pos hc, decide_eq_true hc, ← h hc]
    rfl
  · rw [if_neg hc, decide_eq_false hc]
    rfl

/-- The data of the rows from any place on, with the number of pages and the number of the page that were
found. -/
def ofPlace (r : Request) (offset size total pages page : ℕ) : Meta :=
  { bare r with
    hasNext := .bool (decide (offset + size < total))
    hasPrevious := .bool (decide (0 < offset))
    currentOffset := .int offset
    currentPage := .int page
    nextOffset := if offset + size < total then .int (offset + size : ℕ) else .null
    nextPage := if offset + size < total then .int (min pages (page + 1) : ℕ) else .null
    previousOffset := if 0 < offset then .int (offset - size : ℕ) else .null
    previousPage := if 1 < page then .int (page - 1 : ℕ) else .null
    pageSize := .int size
    totalCount := .int total
    totalPages := .int pages }

/-- The data follow from natural numbers without any failure. -/
theorem paged_nat (r : Request) (offset size total pages page : ℕ) :
    paged r (.int offset) (.int size) (.int total) (.int pages) (.int page) =
      .ok (ofPlace r offset size total pages page) := by
  have hskips : skips (.int offset) = .ok (decide (0 < offset)) := by
    rw [skips, Value.precedes_int_eq]
    exact congrArg Except.ok (decide_eq_decide.2 (by omega))
  have hpreviousOffset : (onlyIf (decide (0 < offset)) do
      Value.atLeast (.int 0) (← (Value.int offset).minus (.int size))) =
        .ok (if 0 < offset then .int (offset - size : ℕ) else .null) := by
    refine onlyIf_ok fun _ => ?_
    rw [Value.minus_int, Outcome.ok_bind, Value.atLeast_int]
    refine congrArg (Except.ok ∘ Value.int) ?_
    omega
  have hsecond : Value.precedes false (.int 1) (.int page) = .ok (decide (1 < page)) := by
    rw [Value.precedes_int_eq]
    exact congrArg Except.ok (decide_eq_decide.2 (by omega))
  have hpreviousPage : onlyIf (decide (1 < page)) ((Value.int page).minus (.int 1)) =
      .ok (if 1 < page then .int (page - 1 : ℕ) else .null) := by
    refine onlyIf_ok fun _ => ?_
    rw [Value.minus_int]
    refine congrArg (Except.ok ∘ Value.int) ?_
    omega
  have hstop : (Value.int offset).plus (.int size) = .ok (.int (offset + size : ℕ)) := by
    rw [Value.plus_int, Nat.cast_add]
  have hmore : Value.precedes false (.int (offset + size : ℕ)) (.int total) =
      .ok (decide (offset + size < total)) := by
    rw [Value.precedes_int_eq]
    exact congrArg Except.ok (decide_eq_decide.2 (by omega))
  have hnextPage : (onlyIf (decide (offset + size < total)) do
      (Value.int pages).atMost (← (Value.int page).plus (.int 1))) =
        .ok (if offset + size < total then .int (min pages (page + 1) : ℕ) else .null) := by
    refine onlyIf_ok fun _ => ?_
    rw [Value.plus_int, Outcome.ok_bind, Value.atMost_int]
    refine congrArg (Except.ok ∘ Value.int) ?_
    omega
  rw [paged]
  simp only [hskips, hpreviousOffset, hsecond, hpreviousPage, hstop, hmore, hnextPage,
    Outcome.ok_bind, Outcome.pure_eq_ok, ofPlace, decide_eq_true_eq]

/-- The data of a page say what is true at the place where it begins. -/
theorem ofPlace_page (r : Request) (hs : 0 < s) :
    ofPlace r (i * s) s t (pagesFor t s) (i + 1) = ofPage r i s t := by
  have hstop : i * s + s = (i + 1) * s := (Nat.succ_mul i s).symm
  have hfirst : 0 < i * s ↔ 0 < i :=
    ⟨fun h => Nat.pos_of_mul_pos_right h, fun h => Nat.mul_pos h hs⟩
  have hstart : i * s - s = (i - 1) * s := by
    rw [Nat.sub_mul, Nat.one_mul]
  -- The next page begins in front of the last row, so it is one of the pages.
  have hnext (hlt : (i + 1) * s < t) : min (pagesFor t s) (i + 1 + 1) = i + 2 := by
    have hlast := (lt_upward_iff hs).2 hlt
    rw [← pagesFor_eq ((Nat.le_mul_of_pos_left s i.succ_pos).trans_lt hlt)] at hlast
    omega
  simp only [ofPlace, ofPage, hstop, hfirst, hstart, Nat.add_sub_cancel, Nat.lt_add_left_iff_pos,
    decide_eq_true_eq]
  by_cases hlt : (i + 1) * s < t
  · simp only [hnext hlt]
  · simp only [if_neg hlt]

/-- **The data of a page** follow from its number, its size and the number of rows in all. -/
theorem ofOffset_nat (h : a.Cuts r (i * s : ℕ) s) (hs : 0 < s) (ht : t < 2 ^ 53)
    (hi : i = 0 ∨ i * s < t) : ofOffset a (.int t) = .ok (ofPage a i s t) := by
  have htruthy : (Value.int s).truthy = true := bne_iff_ne.2 (by omega)
  rw [ofOffset, h.skipOrZero, h.size, Outcome.ok_bind, pagesOf_nat hs ht, Outcome.ok_bind,
    if_pos htruthy, pageOf_nat hs ht hi, Outcome.ok_bind, paged_nat, ofPlace_page a hs]

end Meta

/-! ### Pages -/

/-- A window begins where its offset says, also at the first item. -/
theorem windowStart_nat (n : ℕ) :
    (if (Value.int n).truthy then Value.int n else .int 0) = .int n := by
  rcases Nat.eq_zero_or_pos n with rfl | hpos
  · rfl
  · exact if_pos (bne_iff_ne.2 (by omega))

/-- Windows on a list from some item on. -/
theorem window_nat {α : Type} (xs : List α) (n s : ℕ) :
    window xs (.int s) (.int n) = .ok ((xs.drop n).take s) := by
  have hstop : windowEnd (.int n) (.int s) = .ok (.int (n + s : ℕ)) := rfl
  simp only [window, windowStart_nat, hstop, Outcome.ok_bind, Value.position?_int, Option.getD_some,
    Outcome.pure_eq_ok]
  exact congrArg Except.ok (slice_ofNat xs n s)

/-- The page that `i` pages of `s` rows of an arrangement precede, as the answer to a request. -/
def Page.cut (arranged : List Row) (s : ℕ) (a : Request) (i : ℕ) : Page :=
  ⟨(arranged.drop (i * s)).take s, Meta.ofPage a i s arranged.length⟩

/-- **The answer to a request for a page** is this page of the arrangement. -/
theorem Query.run_cut (h : r.Arranges schema o aliases p keys rows) {M : List Row}
    (hM : M = arrangement aliases keys p rows) (hcuts : a.Cuts r (i * s : ℕ) s) (hs : 0 < s)
    (ht : M.length < 2 ^ 53) (hi : i = 0 ∨ i * s < M.length) :
    (Query.run (.inMemory aliases rows schema o) a).outcome = .ok (Page.cut M s a i) := by
  have hselect : selectRows aliases p rows = .ok (matching aliases p rows) :=
    selectRows_ok (Request.predicate_proper h.predicate) h.answers
  have hlength : (matching aliases p rows).length = M.length := by
    rw [hM]
    exact (List.mergeSort_perm _ _).length_eq.symm
  have hfetch : fetch aliases rows ⟨p, keys, .int s, .int (i * s : ℕ), false⟩ =
      .ok ((M.drop (i * s)).take s) := by
    rw [fetch, hselect, Outcome.ok_bind, h.sortRows_ok, Outcome.ok_bind, ← hM]
    exact window_nat M (i * s) s
  have hcount : Sieve.count aliases rows p = .ok M.length := by
    rw [Sieve.count, hselect, Outcome.ok_bind, hlength]
    rfl
  rw [Query.run_cuts _ hcuts]
  simp only [Query.inMemory, Source.memory, h.predicate, h.found, Outcome.ok_bind, hfetch, hcount,
    Meta.ofOffset_nat hcuts hs ht hi]
  rfl

end Sieve
