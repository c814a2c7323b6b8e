import Sieve.Proofs.Keyset.Fetch
import Sieve.Query

/-!
# Pages of ranked rows

The answer to a request for rows after or before a cursor: which rows are on the page, whether there
are more on either side, and which tokens lead on.

* `Page.Shows`: what a page holds and says;
* `Request.StartsAt`: the request starts at a row, or at the end of the ordering;
* `Query.run_first`, `Query.run_last`: the pages in the two directions, where their ends have tokens;
* `Query.shows_first`: what a page shows that is the answer.
-/

namespace Sieve

variable {schema : Option Schema} {aliases : Aliases} {rows : List Row} {o : Options} {r : Request}

/-! ### What pages say -/

/-- The value is the token of the row, or null without a row. -/
def Cursor.Marks (schema : Option Schema) (names : List String) (row : Option Row) (v : Value) :
    Prop :=
  match row with
  | none => v = .null
  | some row => ∃ token, Cursor.tokenOf schema none names row.data = .ok token ∧ v = .text token

/-- The page holds some rows, says whether there are more on both sides, and has the tokens of its
first and its last row. -/
structure Page.Shows (schema : Option Schema) (names : List String) (page : Page)
    (rows : List Row) (next previous : Bool) : Prop where
  held : page.rows = rows
  hasNext : page.info.hasNext = .bool next
  hasPrevious : page.info.hasPrevious = .bool previous
  start : Cursor.Marks schema names rows.head? page.info.startCursor
  stop : Cursor.Marks schema names rows.getLast? page.info.endCursor

/-- A token marks a row, null marks none. -/
theorem Cursor.Marks.eq_null_iff {names : List String} {row : Option Row} {v : Value}
    (h : Cursor.Marks schema names row v) : v = .null ↔ row = none := by
  cases row with
  | none => simpa [Cursor.Marks] using h
  | some row =>
    obtain ⟨token, _, rfl⟩ := h
    simp

namespace Cursor

variable {names : List String} {page : List Row}

/-- The tokens of the ends of a page are those of its first and its last row. -/
theorem ends_cons_eq_ok_iff {row : Row} {rest : List Row} {ends : Option (String × String)} :
    Cursor.ends schema none names ((row :: rest).map (·.data)) = .ok ends ↔
      ∃ first last, tokenOf schema none names row.data = .ok first ∧
        tokenOf schema none names (rest.getLastD row).data = .ok last ∧
        ends = some (first, last) := by
  have hdata : (rest.map (·.data)).getLastD row.data = (rest.getLastD row).data := by
    simp only [List.getLastD_eq_getLast?, List.getLast?_map]
    cases rest.getLast? <;> rfl
  simp only [List.map_cons, Cursor.ends, hdata, Outcome.bind_eq_ok_iff]
  constructor
  · rintro ⟨first, hfirst, last, hlast, h⟩
    cases h
    exact ⟨first, last, hfirst, hlast, rfl⟩
  · rintro ⟨first, last, hfirst, hlast, rfl⟩
    exact ⟨first, hfirst, last, hlast, rfl⟩

/-- The ends of a page have tokens if all of its rows have. -/
theorem ends_ok (h : ∀ row ∈ page, ∃ token, tokenOf schema none names row.data = .ok token) :
    ∃ ends, Cursor.ends schema none names (page.map (·.data)) = .ok ends := by
  cases page with
  | nil => exact ⟨none, rfl⟩
  | cons row rest =>
    obtain ⟨first, hfirst⟩ := h row (by simp)
    have hmem : rest.getLastD row ∈ row :: rest :=
      List.mem_of_getLast? (by rw [List.getLast?_cons, List.getLastD_eq_getLast?])
    obtain ⟨last, hlast⟩ := h _ hmem
    exact ⟨_, ends_cons_eq_ok_iff.2 ⟨first, last, hfirst, hlast, rfl⟩⟩

/-- They mark the first row of the page and the last one. -/
theorem marks_of_ends {ends : Option (String × String)}
    (h : Cursor.ends schema none names (page.map (·.data)) = .ok ends) :
    Marks schema names page.head? ((ends.map fun e => Value.text e.1).getD .null) ∧
      Marks schema names page.getLast? ((ends.map fun e => Value.text e.2).getD .null) := by
  cases page with
  | nil =>
    cases h
    exact ⟨rfl, rfl⟩
  | cons row rest =>
    obtain ⟨first, last, hfirst, hlast, rfl⟩ := ends_cons_eq_ok_iff.1 h
    refine ⟨⟨first, hfirst, rfl⟩, ?_⟩
    rw [List.getLast?_cons, ← List.getLastD_eq_getLast?]
    exact ⟨last, hlast, rfl⟩

end Cursor

/-- A request for a cursor asks for rows after it or before it. -/
theorem Request.isForward_eq (hc : r.byCursor = true) :
    (r.strategy? == some .first) = !r.isBackward := by
  unfold Request.byCursor at hc
  unfold Request.isBackward
  revert hc
  cases r.strategy? with
  | none => intro hc; cases hc
  | some s => cases s <;> intro hc <;> first | rfl | cases hc

/-- The description of a page for a cursor: more rows in its direction were fetched, those on the
other side were looked for. -/
theorem Meta.ofCursor_ok (hc : r.byCursor = true) {f : Meta.Findings} {more : Bool}
    (hmore : r.sizeOrZero.precedes false f.fetched = .ok more) :
    ∃ info, Meta.ofCursor r f = .ok info ∧
      info.hasNext = (if r.isBackward then Meta.beyondOf r.token f else .bool more) ∧
      info.hasPrevious = (if r.isBackward then .bool more else Meta.beyondOf r.token f) ∧
      info.startCursor = f.startCursor ∧ info.endCursor = f.endCursor := by
  have hforward : (r.strategy? == some .first) = !r.isBackward := Request.isForward_eq hc
  rw [Meta.ofCursor, hmore]
  refine ⟨_, rfl, ?_, ?_, rfl, rfl⟩
  · simp only [hforward, Request.token]
    cases r.isBackward <;> rfl
  · simp only [hforward, Request.token]
    cases r.isBackward <;> rfl

/-! ### Requests for a number of rows -/

theorem Request.sizeAndOne_of_size {n : Nat} (h : r.size = .int n) :
    r.sizeAndOne = .ok (.int (n + 1 : Nat)) := by
  rw [Request.sizeAndOne, h]
  simp [Value.isNull]

/-- Without a token the plan for a cursor asks for one row more than the request. -/
theorem Request.plan_unpivoted {p : Predicate} {keys : List SortKey} {n : Nat}
    (hc : r.byCursor = true) (hpivot : r.pivot = .ok none)
    (hpredicate : (r.predicate schema o).outcome = .ok p) (hkeys : r.direct.keys schema = .ok keys)
    (hsize : r.size = .int n) :
    (r.plan schema o).outcome = .ok ⟨p, keys, .int (n + 1 : Nat), .null, r.isBackward⟩ := by
  simp only [Request.plan, Request.cursorPlan, hc, if_true, Traced.bind_outcome, hpredicate,
    Outcome.ok_bind, Traced.lift_outcome, hpivot, hkeys, Request.sizeAndOne_of_size hsize]
  rfl

/-- The page for a cursor holds as many of the rows as are asked for. -/
theorem Query.pageRows_of_size {n : Nat} (hc : r.byCursor = true) (h : r.size = .int n)
    (fetched : List Row) : Query.pageRows r fetched =
      .ok (if r.isBackward then (fetched.take n).reverse else fetched.take n) := by
  have hslice := slice_ofNat fetched 0 n
  simp only [Query.pageRows, hc, if_true, h, Value.position?_int, Outcome.ok_bind]
  simp only [Nat.cast_zero, Nat.zero_add, List.drop_zero] at hslice
  rw [hslice]
  rfl

/-! ### Requests for ranked rows -/

/-- The request starts behind a row, or without one at the end of the ordering. -/
def Request.StartsAt (r : Request) (K : Ranking) : Option Value → Prop
  | none => r.pivot = .ok none
  | some pivot => ∃ c, r.pivot = .ok (some c) ∧
      ∀ t ∈ r.direct, c.bound? t.field = some (K.value t.field pivot)

/-- The request asks for `n` rows of a covered collection, starting at a row or at an end. -/
structure Request.Asks (r : Request) (schema : Option Schema) (aliases : Aliases) (o : Options)
    (K : Ranking) (p : Predicate) (rows : List Row) (start : Option Value) (n : Nat) : Prop where
  predicate : (r.predicate schema o).outcome = .ok p
  located : K.Locates schema r.direct
  covers : K.Covers aliases r.direct p rows
  starts : r.StartsAt K start
  pivots : ∀ pivot ∈ start, K.Pivots r.direct rows pivot
  size : r.size = .int n

/-- The matching rows that a request may ask for, in its direct order. -/
def Ranking.candidates (K : Ranking) (aliases : Aliases) (order : SortOrder) (p : Predicate)
    (rows : List Row) : Option Value → List Row
  | none => K.arranged aliases order p rows
  | some pivot => (K.arranged aliases order p rows).filter (K.isAfter order pivot)

/-- Whether there are matching rows on the other side. -/
def Ranking.leavesOut (K : Ranking) (aliases : Aliases) (order : SortOrder) (p : Predicate)
    (rows : List Row) : Option Value → Bool
  | none => false
  | some pivot => (matching aliases p rows).any (!K.isAfter order pivot ·)

namespace Request.Asks

variable {K : Ranking} {p : Predicate} {start : Option Value} {n : Nat}
  (h : r.Asks schema aliases o K p rows start n)
include h

theorem mem_matching {row : Row} (hrow : row ∈ K.candidates aliases r.direct p rows start) :
    row ∈ matching aliases p rows := by
  cases start with
  | none => exact Ranking.mem_of_mem_arranged hrow
  | some pivot => exact Ranking.mem_of_mem_arranged (List.mem_filter.1 hrow).1

/-- The candidates have tokens at their ends if the matching rows have tokens. -/
theorem ends_ok (htokens : ∀ row ∈ matching aliases p rows,
      ∃ token, Cursor.tokenOf schema none r.orderNames row.data = .ok token) {page : List Row}
    (hpage : page ⊆ K.candidates aliases r.direct p rows start) :
    ∃ ends, Cursor.ends schema none r.orderNames (page.map (·.data)) = .ok ends :=
  Cursor.ends_ok fun _ hrow => htokens _ (h.mem_matching (hpage hrow))

/-- The plan fetches one candidate more than asked for. -/
theorem plan_fetch (hc : r.byCursor = true) :
    ∃ plan, (r.plan schema o).outcome = .ok plan ∧
      fetch aliases rows plan =
        .ok ((K.candidates aliases r.direct p rows start).take (n + 1)) := by
  have hkeys : r.direct.keys schema = .ok (r.direct.map K.key) := Ranking.keys_ok h.located
  cases start with
  | none =>
    exact ⟨_, Request.plan_unpivoted hc h.starts h.predicate hkeys h.size, h.covers.fetch_first _ _⟩
  | some pivot =>
    obtain ⟨c, hpivot, hbound⟩ := h.starts
    refine ⟨⟨p.and (K.edge pivot r.direct), r.direct.map K.key, .int (n + 1 : Nat), .null,
      r.isBackward⟩, ?_, h.covers.fetch_after (h.pivots pivot rfl) _ _⟩
    simp only [Request.plan, Request.cursorPlan, hc, if_true, Traced.bind_outcome, h.predicate,
      Outcome.ok_bind, Traced.lift_outcome, hpivot, Ranking.boundary_ok h.located hbound, hkeys,
      Request.sizeAndOne_of_size h.size]
    rfl

/-- The lookback finds out whether there are rows on the other side. -/
theorem beyond_ok (hc : r.byCursor = true) :
    (Query.beyond (.inMemory aliases rows schema o) r).outcome =
      .ok (K.leavesOut aliases r.direct p rows start) := by
  simp only [Query.beyond, Query.inMemory, Request.lookback, hc, if_true, Traced.bind_outcome]
  cases start with
  | none =>
    have hpivot : r.pivot = .ok none := h.starts
    simp only [Traced.lift_outcome, hpivot, Outcome.ok_bind]
    rfl
  | some pivot =>
    obtain ⟨c, hpivot, hc⟩ := h.starts
    have hfetch := h.covers.fetch_notAfter (h.pivots pivot rfl)
    simp only [Traced.lift_outcome, hpivot, Outcome.ok_bind, Traced.bind_outcome, h.predicate,
      Ranking.boundary_ok h.located hc, Traced.pure_outcome, Source.memory, hfetch,
      Ranking.leavesOut]
    congr 1
    rw [Bool.eq_iff_iff, List.any_eq_true]
    constructor
    · intro hne
      obtain ⟨row, rest, hrow⟩ := List.exists_cons_of_ne_nil (l := ((matching aliases p rows).filter
        (!K.isAfter r.direct pivot ·)).take 1) (by simpa using hne)
      have hmem : row ∈ (matching aliases p rows).filter (!K.isAfter r.direct pivot ·) :=
        List.mem_of_mem_take (hrow ▸ List.mem_cons_self)
      exact ⟨row, List.mem_filter.1 hmem⟩
    · rintro ⟨row, hrow, hf⟩
      have hmem : row ∈ (matching aliases p rows).filter (!K.isAfter r.direct pivot ·) :=
        List.mem_filter.2 ⟨hrow, hf⟩
      obtain ⟨first, rest, hfirst⟩ := List.exists_cons_of_ne_nil (List.ne_nil_of_mem hmem)
      rw [hfirst]
      rfl

/-- The page before it is described: the candidates asked for, and how many were fetched. -/
theorem fetchPage_ok (hc : r.byCursor = true) :
    (Query.fetchPage (.inMemory aliases rows schema o) r).outcome =
      .ok (if r.isBackward then ((K.candidates aliases r.direct p rows start).take n).reverse
          else (K.candidates aliases r.direct p rows start).take n,
        min (n + 1) (K.candidates aliases r.direct p rows start).length) := by
  obtain ⟨plan, hplan, hfetch⟩ := h.plan_fetch hc
  simp only [Query.fetchPage, Query.inMemory, Traced.bind_outcome, hplan, Outcome.ok_bind,
    Traced.lift_outcome, Source.memory, hfetch, Query.pageRows_of_size hc h.size, Traced.pure_outcome,
    List.length_take, List.take_take]
  rw [Nat.min_eq_left (Nat.le_succ n)]

/-- What is found out about the page: the tokens of its ends, and the rows on the other side. -/
theorem findings_eq (ho : o.cursorFunction = none) (hc : r.byCursor = true) (page : List Row)
    (fetched : Nat) :
    (Query.cursorFindings (.inMemory aliases rows schema o) r page fetched).outcome =
      (Cursor.ends schema none r.orderNames (page.map (·.data))).map fun ends =>
        ⟨.null, .int fetched, (ends.map fun e => Value.text e.1).getD .null,
          (ends.map fun e => Value.text e.2).getD .null,
          .bool (K.leavesOut aliases r.direct p rows start)⟩ := by
  have hbeyond := h.beyond_ok hc
  simp only [Query.inMemory] at hbeyond
  simp only [Query.cursorFindings, Query.inMemory, ho, Traced.bind_outcome, Traced.lift_outcome]
  cases Cursor.ends schema none r.orderNames (page.map (·.data)) with
  | error e => rfl
  | ok ends =>
    simp only [Outcome.ok_bind, hbeyond]
    rfl

/-- The token of the request is given if it starts at a row. -/
theorem token_isNull : r.token.isNull = start.isNone := by
  cases start with
  | none =>
    have hpivot : r.pivot = .ok none := h.starts
    by_contra htoken
    simp only [Option.isNone_none, Bool.not_eq_true] at htoken
    simp only [Request.pivot, htoken, Bool.false_eq_true, if_false] at hpivot
    split at hpivot
    · cases hpivot
    · obtain ⟨c, _, hc⟩ := Outcome.map_eq_ok_iff.1 hpivot
      cases hc
  | some pivot =>
    obtain ⟨c, hpivot, _⟩ := h.starts
    by_contra htoken
    simp only [Option.isNone_some, Bool.not_eq_false] at htoken
    simp [Request.pivot, htoken] at hpivot

theorem beyondOf_token {f : Meta.Findings}
    (hf : f.beyond = .bool (K.leavesOut aliases r.direct p rows start)) :
    Meta.beyondOf r.token f = .bool (K.leavesOut aliases r.direct p rows start) := by
  rw [Meta.beyondOf, h.token_isNull]
  cases start with
  | none => rfl
  | some pivot => exact hf

/-- Whether there are more rows than asked for is seen from the one fetched beyond them. -/
theorem more_ok : r.sizeOrZero.precedes false
      (.int (min (n + 1) (K.candidates aliases r.direct p rows start).length : Nat)) =
    .ok (decide (n < (K.candidates aliases r.direct p rows start).length)) := by
  have hsize : r.sizeOrZero = .int n := by
    rw [Request.sizeOrZero, h.size]
    cases n <;> rfl
  rw [hsize, Value.precedes_int]
  generalize (K.candidates aliases r.direct p rows start).length = m
  congr 1
  rcases Nat.lt_or_ge n m with hlt | hge
  · have hcmp : Ord.compare (n : Int) (min (n + 1) m : Nat) = .lt := by
      rw [Int.compare_eq_lt]
      omega
    rw [hcmp, decide_eq_true hlt]
    rfl
  · have hcmp : Ord.compare (n : Int) (min (n + 1) m : Nat) ≠ .lt := by
      rw [ne_eq, Int.compare_eq_lt]
      omega
    rw [decide_eq_false (by omega)]
    cases hc : Ord.compare (n : Int) (min (n + 1) m : Nat) with
    | lt => exact absurd hc hcmp
    | eq | gt => rfl

/-- Where the request is answered, the ends of the page have tokens. -/
theorem ends_of_run (ho : o.cursorFunction = none) (hc : r.byCursor = true) {answer : Page}
    (hrun : (Query.run (.inMemory aliases rows schema o) r).outcome = .ok answer) {page : List Row}
    (hpage : page = if r.isBackward then
        ((K.candidates aliases r.direct p rows start).take n).reverse
      else (K.candidates aliases r.direct p rows start).take n) :
    ∃ ends, Cursor.ends schema none r.orderNames (page.map (·.data)) = .ok ends := by
  have hfetch := h.fetchPage_ok hc
  rw [← hpage] at hfetch
  cases hends : Cursor.ends schema none r.orderNames (page.map (·.data)) with
  | ok ends => exact ⟨ends, rfl⟩
  | error e =>
    have hfindings := h.findings_eq ho hc page
      (min (n + 1) (K.candidates aliases r.direct p rows start).length)
    rw [hends] at hfindings
    simp only [Query.run, hc, if_true, Traced.bind_outcome, hfetch, Outcome.ok_bind,
      hfindings] at hrun
    cases hrun

/-- The answer to the request: the candidates asked for, and what is said about them. -/
theorem run_ok (ho : o.cursorFunction = none) (hc : r.byCursor = true) {page : List Row}
    (hpage : page = if r.isBackward then
        ((K.candidates aliases r.direct p rows start).take n).reverse
      else (K.candidates aliases r.direct p rows start).take n)
    (hends : ∃ ends, Cursor.ends schema none r.orderNames (page.map (·.data)) = .ok ends) :
    ∃ info, (Query.run (.inMemory aliases rows schema o) r).outcome = .ok ⟨page, info⟩ ∧
      info.hasNext = .bool (if r.isBackward then K.leavesOut aliases r.direct p rows start
        else decide (n < (K.candidates aliases r.direct p rows start).length)) ∧
      info.hasPrevious = .bool (if r.isBackward then
          decide (n < (K.candidates aliases r.direct p rows start).length)
        else K.leavesOut aliases r.direct p rows start) ∧
      Cursor.Marks schema r.orderNames page.head? info.startCursor ∧
      Cursor.Marks schema r.orderNames page.getLast? info.endCursor := by
  have hfetch := h.fetchPage_ok hc
  rw [← hpage] at hfetch
  obtain ⟨ends, hends⟩ := hends
  obtain ⟨hfirst, hlast⟩ := Cursor.marks_of_ends hends
  have hfindings := h.findings_eq ho hc page
    (min (n + 1) (K.candidates aliases r.direct p rows start).length)
  rw [hends, Except.map] at hfindings
  generalize hf : (⟨.null, _, _, _, _⟩ : Meta.Findings) = f at hfindings
  have hmore : r.sizeOrZero.precedes false f.fetched =
      .ok (decide (n < (K.candidates aliases r.direct p rows start).length)) := by
    rw [← hf]
    exact h.more_ok
  have hbeyond : Meta.beyondOf r.token f = .bool (K.leavesOut aliases r.direct p rows start) :=
    h.beyondOf_token (by rw [← hf])
  obtain ⟨info, hinfo, hnext, hprevious, hstart, hstop⟩ := Meta.ofCursor_ok hc hmore
  rw [hbeyond] at hnext hprevious
  refine ⟨info, ?_, ?_, ?_, ?_, ?_⟩
  · have hof : Meta.of r f = .ok info := by
      rw [← hinfo]
      exact if_pos hc
    simp only [Query.run, hc, if_true, Traced.bind_outcome, hfetch, Outcome.ok_bind, hfindings,
      Traced.lift_outcome, hof]
    rfl
  · rw [hnext]
    cases r.isBackward <;> rfl
  · rw [hprevious]
    cases r.isBackward <;> rfl
  · rw [hstart, ← hf]
    exact hfirst
  · rw [hstop, ← hf]
    exact hlast

end Request.Asks

/-! ### Pages -/

namespace Query

variable {K : Ranking} {p : Predicate} {start : Option Value} {n : Nat}

/-- **The page after a row** holds the next candidates. -/
theorem run_first (h : r.Asks schema aliases o K p rows start n) (ho : o.cursorFunction = none)
    (hs : r.strategy? = some .first)
    (hends : ∃ ends, Cursor.ends schema none r.orderNames
      (((K.candidates aliases r.direct p rows start).take n).map (·.data)) = .ok ends) :
    ∃ page, (run (.inMemory aliases rows schema o) r).outcome = .ok page ∧
      page.Shows schema r.orderNames ((K.candidates aliases r.direct p rows start).take n)
        (decide (n < (K.candidates aliases r.direct p rows start).length))
        (K.leavesOut aliases r.direct p rows start) := by
  have hb : r.isBackward = false := by simp [Request.isBackward, hs]
  obtain ⟨info, hrun, hnext, hprevious, hfirst, hlast⟩ :=
    h.run_ok ho (by simp [Request.byCursor, hs, Strategy.byCursor]) rfl (by simpa [hb] using hends)
  simp only [hb, Bool.false_eq_true, if_false] at hrun hnext hprevious hfirst hlast
  exact ⟨_, hrun, rfl, hnext, hprevious, hfirst, hlast⟩

/-- What is shown by a page after a row that is the answer. -/
theorem shows_first (h : r.Asks schema aliases o K p rows start n) (ho : o.cursorFunction = none)
    (hs : r.strategy? = some .first) {page : Page}
    (hrun : (run (.inMemory aliases rows schema o) r).outcome = .ok page) :
    page.Shows schema r.orderNames ((K.candidates aliases r.direct p rows start).take n)
      (decide (n < (K.candidates aliases r.direct p rows start).length))
      (K.leavesOut aliases r.direct p rows start) := by
  have hb : r.isBackward = false := by simp [Request.isBackward, hs]
  have hends := h.ends_of_run ho (by simp [Request.byCursor, hs, Strategy.byCursor]) hrun rfl
  simp only [hb, Bool.false_eq_true, if_false] at hends
  obtain ⟨page', hrun', hshows⟩ := run_first h ho hs hends
  rw [hrun] at hrun'
  cases hrun'
  exact hshows

/-- **The page before a row** holds the next candidates of the opposite order, turned round. -/
theorem run_last (h : r.Asks schema aliases o K p rows start n) (ho : o.cursorFunction = none)
    (hs : r.strategy? = some .last)
    (hends : ∃ ends, Cursor.ends schema none r.orderNames
      (((K.candidates aliases r.direct p rows start).take n).reverse.map (·.data)) = .ok ends) :
    ∃ page, (run (.inMemory aliases rows schema o) r).outcome = .ok page ∧
      page.Shows schema r.orderNames ((K.candidates aliases r.direct p rows start).take n).reverse
        (K.leavesOut aliases r.direct p rows start)
        (decide (n < (K.candidates aliases r.direct p rows start).length)) := by
  have hb : r.isBackward = true := by simp [Request.isBackward, hs]
  obtain ⟨info, hrun, hnext, hprevious, hfirst, hlast⟩ :=
    h.run_ok ho (by simp [Request.byCursor, hs, Strategy.byCursor]) rfl (by simpa [hb] using hends)
  simp only [hb, if_true] at hrun hnext hprevious hfirst hlast
  exact ⟨_, hrun, rfl, hnext, hprevious, hfirst, hlast⟩

end Query

end Sieve
