import Sieve.Proofs.Keyset.Walk

/-!
# Going on behind a page

The data of a page lead to a request for the rows behind it. It starts at the last row of the page, so it
leads on and never back. An empty page has no last row: the request that follows from it has no token, and
is for the first rows of all.

* `Request.rowsAfter`: the request for rows after a token;
* `Request.Ranked.run_rowsAfter`: its page, for the token of any row;
* `Request.Ranked.run_marked`: the page after a matching row, or from the beginning;
* `Query.nextCursor_onward`: what the request behind a page selects;
* `Query.nextCursor_restarts`: where it goes back.
-/

namespace Sieve

open Std (TransCmp)

variable {schema : Option Schema} {o : Options} {aliases : Aliases} {S : String → Value → Prop}
  {p : Predicate} {data : List Value} {r : Request} {n : ℕ}

/-- The request for some rows after a token, with what the token was decoded to, if it was. -/
def Request.rowsAfter (r : Request) (n : ℕ) (token : String) (decoded : Option Cursor) : Request :=
  { r with
    pagination := { Pagination.empty with first := .int n, after := .text token }
    cursor := decoded }

/-! ### The request behind a page -/

/-- The data of a page repeat the request. -/
theorem Query.request_run {q : Query} {page : Page} (hc : r.byCursor = true)
    (h : (q.run r).outcome = .ok page) : page.info.request = r := by
  simp only [Query.run, hc, if_true, Traced.bind_outcome] at h
  obtain ⟨⟨rows, fetched⟩, _, h⟩ := Outcome.bind_eq_ok_iff.1 h
  obtain ⟨f, _, h⟩ := Outcome.bind_eq_ok_iff.1 h
  obtain ⟨info, hinfo, h⟩ := Outcome.bind_eq_ok_iff.1 h
  obtain ⟨_, _, h⟩ := Outcome.bind_eq_ok_iff.1 h
  cases h
  have hof : Meta.of r f = Meta.ofCursor r f := if_pos hc
  rw [Traced.lift_outcome, hof] at hinfo
  exact Meta.request_ofCursor hinfo

/-- The request behind a page starts at its last row. -/
theorem Query.nextCursor_rowsAfter {q : Query} {page : Page} {token : String}
    {decoded : Option Cursor} (h : (q.run (r.rowsAfter n token decoded)).outcome = .ok page) :
    page.info.nextCursor =
      r.paginated { Pagination.empty with first := .int n, after := page.info.endCursor } := by
  rw [Meta.nextCursor, Query.request_run rfl h]
  rfl

/-! ### Pages after rows -/

section Tokens

variable
  (survives : ∀ row ∈ data, p.holds aliases row = true → Cursor.Survives schema r.orderNames row)
include survives

/-- The tokens of matching rows are read as their cursors. -/
theorem Row.exists_cursor {row : Row} (hrow : row ∈ matching aliases p (Row.collection data)) :
    ∃ c token, Cursor.ofRow schema row.data r.orderNames = .ok c ∧
      Cursor.tokenOf schema none r.orderNames row.data = .ok token ∧
      Cursor.decode token = .ok c.raw := by
  obtain ⟨hdata, hholds⟩ := Row.data_mem_of_matching hrow
  exact (survives _ hdata hholds).token

theorem Row.exists_token : ∀ row ∈ matching aliases p (Row.collection data),
    ∃ token, Cursor.tokenOf schema none r.orderNames row.data = .ok token := by
  intro row hrow
  obtain ⟨_, token, _, htoken, _⟩ := Row.exists_cursor survives hrow
  exact ⟨token, htoken⟩

end Tokens

namespace Request.Ranked

variable (h : r.Ranked schema o aliases S p data)
include h

/-- Rows are compared with a row that has values of the same types, also if it is not among them. -/
theorem pivots_filled {pivot : Value} (hpivot : Ranking.Filled schema S r.orderNames pivot) :
    (Ranking.typed schema S).Pivots r.sort (Row.collection data) pivot where
  full := Ranking.full_typed (by simpa using hpivot.holds) (by simpa using hpivot.ne_null)
  left row hrow := Ranking.compares_typed (by simpa using h.total)
    (by simpa using h.typed _ (Row.data_mem hrow)) (by simpa using hpivot.holds)
  right row hrow := Ranking.compares_typed (by simpa using h.total) (by simpa using hpivot.holds)
    (by simpa using h.typed _ (Row.data_mem hrow))

/-- Rows are sorted behind such a row as the ranking says. -/
theorem compareRows_filled (hs : Schema.HasPaths schema) {pivot : Value}
    (hpivot : Ranking.Filled schema S r.orderNames pivot) {row : Row}
    (hrow : row ∈ matching aliases p (Row.collection data)) :
    compareRows aliases (r.sort.map (Ranking.typed schema S).key) pivot row.data =
      .ok ((Ranking.typed schema S).compare r.sort pivot row.data) :=
  Ranking.compareRows_filled hs (by simpa using h.direct) (by simpa using h.total)
    (by simpa using hpivot) (by simpa using h.filled hrow)

/-- The page after the token of a row. The row need not be in the collection, and the token may have been
decoded before. -/
theorem run_rowsAfter (hs : Schema.HasPaths schema) (ho : o.cursorFunction = none)
    (tokens : ∀ row ∈ matching aliases p (Row.collection data),
      ∃ token, Cursor.tokenOf schema none r.orderNames row.data = .ok token)
    {pivot : Value} (hpivot : Ranking.Filled schema S r.orderNames pivot) {c : Cursor}
    {token : String} (hc : Cursor.ofRow schema pivot r.orderNames = .ok c)
    (hdec : Cursor.decode token = .ok c.raw) {decoded : Option Cursor}
    (hdecoded : decoded = none ∨ decoded = some c) (n : ℕ) :
    ∃ page, (Query.run (.inMemory aliases (Row.collection data) schema o)
        (r.rowsAfter n token decoded)).outcome = .ok page ∧
      page.Shows schema r.orderNames
        (((Ranking.typed schema S).candidates aliases r.sort p (Row.collection data)
          (some pivot)).take n)
        (decide (n < ((Ranking.typed schema S).candidates aliases r.sort p (Row.collection data)
          (some pivot)).length))
        ((Ranking.typed schema S).leavesOut aliases r.sort p (Row.collection data) (some pivot)) := by
  have hr : (r.rowsAfter n token decoded).Ranked schema o aliases S p data := { h with }
  have hstarts : (r.rowsAfter n token decoded).StartsAt (Ranking.typed schema S) (some pivot) := by
    have htoken : (r.rowsAfter n token decoded).token = .text token := rfl
    refine ⟨c, Request.pivot_of_token htoken hdec hdecoded, fun t ht => ?_⟩
    have hname := Request.field_mem ht
    exact Ranking.bound?_ofRow hc hname (hpivot.ne_null _ hname)
  have hasks := hr.asks hs hstarts (by rintro pivot ⟨⟩; exact h.pivots_filled hpivot) (n := n) rfl
  exact Query.run_first hasks ho rfl (hasks.ends_ok tokens (List.take_subset _ _))

/-- The page after a matching row, or from the beginning. -/
theorem run_marked (hs : Schema.HasPaths schema) (ho : o.cursorFunction = none)
    (survives : ∀ row ∈ data, p.holds aliases row = true → Cursor.Survives schema r.orderNames row)
    {start : Option Row} (hstart : ∀ row ∈ start, row ∈ matching aliases p (Row.collection data))
    {after : Value} (hmarks : Cursor.Marks schema r.orderNames start after) (n : ℕ) :
    ∃ page, (Query.run (.inMemory aliases (Row.collection data) schema o)
        (r.paginated { Pagination.empty with first := .int n, after := after })).outcome =
          .ok page ∧
      page.Shows schema r.orderNames
        (((Ranking.typed schema S).candidates aliases r.sort p (Row.collection data)
          (start.map (·.data))).take n)
        (decide (n < ((Ranking.typed schema S).candidates aliases r.sort p (Row.collection data)
          (start.map (·.data))).length))
        ((Ranking.typed schema S).leavesOut aliases r.sort p (Row.collection data)
          (start.map (·.data))) := by
  generalize hasked : r.paginated { Pagination.empty with first := .int n, after := after } = asked
  have hr : asked.Ranked schema o aliases S p data := hasked ▸ { h with }
  have hstarts : asked.StartsAt (Ranking.typed schema S) (start.map (·.data)) := by
    subst hasked
    cases start with
    | none =>
      obtain rfl : after = .null := hmarks
      exact Request.pivot_withoutToken rfl
    | some row =>
      obtain ⟨token, htoken, rfl⟩ := hmarks
      obtain ⟨c, token', hc, htoken', hdec⟩ := Row.exists_cursor survives (hstart row rfl)
      cases htoken.symm.trans htoken'
      exact hr.startsAt_row (hstart row rfl) rfl rfl hc hdec
  have hpivots : ∀ pivot ∈ start.map (·.data),
      (Ranking.typed schema S).Pivots asked.direct (Row.collection data) pivot := by
    subst hasked
    intro pivot hpivot
    obtain ⟨row, hrow, rfl⟩ := Option.mem_map.1 hpivot
    exact (h.covers hs).pivots (hstart row hrow)
  subst hasked
  have hasks := hr.asks hs hstarts hpivots (n := n) rfl
  exact Query.run_first hasks ho rfl
    (hasks.ends_ok (Row.exists_token survives) (List.take_subset _ _))

end Request.Ranked

/-! ### Going on -/

/-- **The request behind a page goes on from there, unless the page is empty.** With the token of any row
some rows are asked for, and then those behind them. These come strictly after the row if the page is not
empty. If it is, they are the first matching rows, none of which comes after the row. -/
theorem Query.nextCursor_onward (hs : ∀ s ∈ schema, ∃ d, Schema.declare d = .ok s)
    (ho : o.cursorFunction = none) (h : r.Ranked schema o aliases S p data)
    (survives : ∀ row ∈ data, p.holds aliases row = true → Cursor.Survives schema r.orderNames row)
    {pivot : Value} (hpivot : Ranking.Filled schema S r.orderNames pivot) {c : Cursor}
    {token : String} (hc : Cursor.ofRow schema pivot r.orderNames = .ok c)
    (hdec : Cursor.decode token = .ok c.raw) {decoded : Option Cursor}
    (hdecoded : decoded = none ∨ decoded = some c) (n : ℕ) :
    ∃ (keys : List SortKey) (page next : Page), r.sort.keys schema = .ok keys ∧
      (run (.inMemory aliases (Row.collection data) schema o)
        (r.rowsAfter n token decoded)).outcome = .ok page ∧
      (run (.inMemory aliases (Row.collection data) schema o) page.info.nextCursor).outcome =
        .ok next ∧
      ((∀ row ∈ next.rows, compareRows aliases keys pivot row.data = .ok .lt) ↔
        page.rows ≠ [] ∨ next.rows = []) ∧
      (page.rows = [] → next.rows.length = min n (data.filter (p.holds aliases)).length) := by
  have hpaths : Schema.HasPaths schema := Schema.hasPaths_of_declared hs
  obtain ⟨page, hpage, hshows⟩ :=
    h.run_rowsAfter hpaths ho (Row.exists_token survives) hpivot hc hdec hdecoded n
  have hmarks : Cursor.Marks schema r.orderNames page.rows.getLast? page.info.endCursor :=
    hshows.held ▸ hshows.stop
  have hheld : ∀ row ∈ page.rows, row ∈ matching aliases p (Row.collection data) ∧
      (Ranking.typed schema S).compare r.sort pivot row.data = .lt := by
    intro row hrow
    rw [hshows.held] at hrow
    exact Ranking.mem_candidates_pivot.1 (List.mem_of_mem_take hrow)
  obtain ⟨next, hnext, hrows, _⟩ := h.run_marked hpaths ho survives
    (fun row hrow => (hheld row (List.mem_of_getLast? hrow)).1) hmarks n
  have hbehind : ∀ row ∈ next.rows, row ∈ matching aliases p (Row.collection data) ∧
      ∀ last ∈ page.rows.getLast?,
        (Ranking.typed schema S).compare r.sort last.data row.data = .lt := by
    intro row hrow
    rw [hrows] at hrow
    exact Ranking.mem_candidates.1 (List.mem_of_mem_take hrow)
  refine ⟨r.sort.map (Ranking.typed schema S).key, page, next,
    Ranking.keys_ok (Ranking.locates_typed (by simpa using h.direct)), hpage,
    by rwa [Query.nextCursor_rowsAfter hpage], ⟨fun hall => ?_, ?_⟩, fun hempty => ?_⟩
  · -- A row of the page behind an empty one would have been on the empty one.
    by_contra hnone
    rw [not_or, not_not] at hnone
    obtain ⟨hempty, hsome⟩ := hnone
    obtain ⟨row, hrow⟩ := List.exists_mem_of_ne_nil _ hsome
    have hlt := hall row hrow
    rw [h.compareRows_filled hpaths hpivot (hbehind row hrow).1, Except.ok.injEq] at hlt
    have hcandidate := Ranking.mem_candidates_pivot.2 ⟨(hbehind row hrow).1, hlt⟩
    rw [hshows.held, List.take_eq_nil_iff] at hempty
    rcases hempty with rfl | hcandidates
    · rw [hrows, List.take_zero] at hsome
      exact hsome rfl
    · exact List.ne_nil_of_mem hcandidate hcandidates
  · rintro (hfull | hnone) row hrow
    · have hlast := List.getLast?_eq_some_getLast hfull
      obtain ⟨_, hstart⟩ := hheld _ (List.mem_of_getLast? hlast)
      obtain ⟨hmatching, hafter⟩ := hbehind row hrow
      rw [h.compareRows_filled hpaths hpivot hmatching, TransCmp.lt_trans hstart (hafter _ hlast)]
    · rw [hnone] at hrow
      cases hrow
  · rw [hrows, hempty, List.length_take, ← map_data_matching, List.length_map]
    exact congrArg (min n) (Strict.length_sorted _)

/-! ### Rows with numbers -/

theorem survives_numberedRow {ids : List Int}
    (hids : ∀ i ∈ ids, (Numeral.digitsOf i.natAbs).length ≤ Numeral.maxDigits) :
    ∀ row ∈ ids.map numberedRow, Predicate.holds [] (.all []) row = true →
      Cursor.Survives (some .numbers) Request.firstById.orderNames row := by
  simp only [List.forall_mem_map]
  exact fun i hi _ => (hasKinds_numberedRow Query.sortValue_numbers i).survives (by decide)
    (canCarry_numberedRow Query.sortValue_numbers (hids i hi))

theorem filled_numberedRow (i : Int) :
    Ranking.Filled (some .numbers) (fun _ => Kind.integer.Has) Request.firstById.orderNames
      (numberedRow i) := by
  intro n hn
  rw [List.mem_singleton.1 hn]
  exact ⟨.int i, Query.sortValue_numbers i, nofun, .integer i⟩

/-- The row behind the second one of three, and the row behind that. -/
theorem Query.nextCursor_onward_numberedRow :
    Request.firstById.Ranked (some .numbers) .unrestricted [] (fun _ => Kind.integer.Has) (.all [])
      ([1, 2, 3].map numberedRow) ∧
    ∃ c token, Cursor.tokenOf (some .numbers) none ["id"] (numberedRow 1) = .ok token ∧
      Cursor.decode token = .ok c.raw ∧
      ∃ (keys : List SortKey) (page next : Page),
        Request.firstById.sort.keys (some .numbers) = .ok keys ∧
        (run (.inMemory [] (Row.collection ([1, 2, 3].map numberedRow)) (some .numbers) .unrestricted)
          (Request.firstById.rowsAfter 1 token (some c))).outcome = .ok page ∧
        (run (.inMemory [] (Row.collection ([1, 2, 3].map numberedRow)) (some .numbers) .unrestricted)
          page.info.nextCursor).outcome = .ok next ∧
        ((∀ row ∈ next.rows, compareRows [] keys (numberedRow 1) row.data = .ok .lt) ↔
          page.rows ≠ [] ∨ next.rows = []) ∧
        (page.rows = [] → next.rows.length =
          min 1 (([1, 2, 3].map numberedRow).filter (Predicate.holds [] (.all []))).length) := by
  have hranked := ranked_byId (show [(1 : Int), 2, 3].Nodup by decide)
  have hsurvives := @survives_numberedRow [1, 2, 3] (by decide)
  obtain ⟨c, token, hc, htoken, hdec⟩ := (hsurvives (numberedRow 1) (by simp) rfl).token
  exact ⟨hranked, c, token, htoken, hdec,
    nextCursor_onward (by rintro s ⟨⟩; exact ⟨.numbers, rfl⟩) rfl hranked hsurvives
      (filled_numberedRow 1) hc hdec (.inr rfl) 1⟩

/-- **The request behind an empty page goes back**: after the only row there is an empty page, and the
request that follows from it selects the row again. -/
theorem Query.nextCursor_restarts :
    Request.firstById.Ranked (some .numbers) .unrestricted [] (fun _ => Kind.integer.Has) (.all [])
      [numberedRow 1] ∧
    ∃ (token : String) (keys : List SortKey) (page next : Page),
      Cursor.tokenOf (some .numbers) none ["id"] (numberedRow 1) = .ok token ∧
      Request.firstById.sort.keys (some .numbers) = .ok keys ∧
      (run (.inMemory [] (Row.collection [numberedRow 1]) (some .numbers) .unrestricted)
        (Request.firstById.rowsAfter 1 token none)).outcome = .ok page ∧
      page.rows = [] ∧
      (run (.inMemory [] (Row.collection [numberedRow 1]) (some .numbers) .unrestricted)
        page.info.nextCursor).outcome = .ok next ∧
      next.rows = [⟨0, numberedRow 1⟩] ∧
      compareRows [] keys (numberedRow 1) (numberedRow 1) = .ok .eq := by
  have hranked := ranked_byId (show [(1 : Int)].Nodup by decide)
  have hsurvives := @survives_numberedRow [1] (by decide)
  have hpaths : Schema.HasPaths (some .numbers) := setting_byId.hasPaths
  obtain ⟨c, token, hc, htoken, hdec⟩ := (hsurvives (numberedRow 1) (by simp) rfl).token
  obtain ⟨hfirst, hafter⟩ := candidates_one
    (.typed (some .numbers) fun _ => Kind.integer.Has) Request.firstById.sort [] (numberedRow 1)
  obtain ⟨page, hpage, hshows⟩ := hranked.run_rowsAfter hpaths rfl (Row.exists_token hsurvives)
    (filled_numberedRow 1) hc hdec (.inl rfl) 1
  have hempty : page.rows = [] := hshows.held.trans (congrArg (List.take 1) hafter)
  have hmarks : Cursor.Marks (some .numbers) ["id"] none page.info.endCursor := by
    have hstop := hshows.stop
    rwa [← hshows.held, hempty] at hstop
  obtain ⟨next, hnext, hrows, _⟩ := hranked.run_marked hpaths rfl hsurvives (by simp) hmarks 1
  have hmatching : (⟨0, numberedRow 1⟩ : Row) ∈
      matching [] (.all []) (Row.collection ([1].map numberedRow)) := List.mem_singleton_self _
  have hself : (Ranking.typed (some .numbers) fun _ => Kind.integer.Has).compare
      Request.firstById.sort (numberedRow 1) (numberedRow 1) = .eq := Std.ReflCmp.compare_self
  refine ⟨hranked, token,
    Request.firstById.sort.map (Ranking.typed (some .numbers) fun _ => Kind.integer.Has).key,
    page, next, htoken, Ranking.keys_ok (Ranking.locates_typed setting_byId.direct), hpage, hempty,
    by rwa [nextCursor_rowsAfter hpage], hrows.trans (congrArg (List.take 1) hfirst), ?_⟩
  rw [← hself]
  exact hranked.compareRows_filled hpaths (filled_numberedRow 1) hmatching

end Sieve
