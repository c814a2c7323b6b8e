import Sieve.Proofs.Paging.Page

/-!
# Walks over all pages

A client starts at the first page, or at offset zero, and goes to the next page as long as the answer
names one. It visits every page once, and the pages it visits hold all rows that meet the filters, one
after another.

* `Query.Follows`: the pages that such a client visits;
* `Query.Navigates`: what the answers name leads from page to page;
* `Query.Navigates.follows`: a walk visits the pages that are left, by induction on their number;
* `Page.Parts`: pages hold an arrangement one after another, and say where they stand;
* `Query.follows_pages`: the walks by pages and by offsets.
-/

namespace Sieve

variable {schema : Option Schema} {aliases : Aliases} {o : Options} {p : Predicate}
  {keys : List SortKey} {rows : List Row} {r : Request} {i s : ℕ}

/-! ### Parts of a list -/

/-- The number of pages of a walk: there is always a first one. -/
def Page.count (t s : ℕ) : ℕ := max 1 (upward t s)

theorem Page.succ_lt_count_iff {t : ℕ} (hs : 0 < s) : i + 1 < count t s ↔ (i + 1) * s < t := by
  rw [count, lt_max_iff, lt_upward_iff hs]
  omega

/-- A page of a walk is the first one or begins in front of the last row. -/
theorem Page.lt_count {t : ℕ} (hs : 0 < s) (hi : i < count t s) : i = 0 ∨ i * s < t := by
  rcases Nat.eq_zero_or_pos i with hzero | hpos
  · exact .inl hzero
  · obtain ⟨j, rfl⟩ := Nat.exists_eq_succ_of_ne_zero hpos.ne'
    exact .inr ((succ_lt_count_iff hs).1 hi)

/-- Windows of one size, one after another, are the beginning of the list. -/
theorem flatMap_windows {α : Type} (xs : List α) (s n : ℕ) :
    ((List.range n).flatMap fun i => (xs.drop (i * s)).take s) = xs.take (n * s) := by
  induction n with
  | zero => simp
  | succ n ih =>
    rw [List.range_succ, List.flatMap_append, ih, Nat.succ_mul, List.take_add]
    simp

/-! ### Following -/

namespace Query

/-- The pages that a client visits from a request on. As long as the answer names what comes next, the
client goes there. -/
inductive Follows (q : Query) (next : Meta → Value)
    (go : Request → Value → Except Error Request) : Request → List Page → Prop
  /-- The answer names nothing. -/
  | stop {a : Request} {page : Page} : (q.run a).outcome = .ok page → next page.info = .null →
      Follows q next go a [page]
  /-- The client goes on. -/
  | step {a b : Request} {page : Page} {pages : List Page} : (q.run a).outcome = .ok page →
      next page.info ≠ .null → go page.info.request (next page.info) = .ok b →
      Follows q next go b pages → Follows q next go a (page :: pages)

/-- A client has no choice. -/
theorem Follows.unique {q : Query} {next : Meta → Value}
    {go : Request → Value → Except Error Request} {a : Request} {pages pages' : List Page}
    (h : q.Follows next go a pages) (h' : q.Follows next go a pages') : pages = pages' := by
  induction h generalizing pages' with
  | stop hrun hnull =>
    cases h' with
    | stop hrun' _ =>
      cases hrun.symm.trans hrun'
      rfl
    | step hrun' hne _ _ =>
      cases hrun.symm.trans hrun'
      exact absurd hnull hne
  | step hrun hne hgo _ ih =>
    cases h' with
    | stop hrun' hnull =>
      cases hrun.symm.trans hrun'
      exact absurd hnull hne
    | step hrun' _ hgo' hrest =>
      cases hrun.symm.trans hrun'
      cases hgo.symm.trans hgo'
      rw [ih hrest]

/-- A family of requests, one for each page of `s` rows. What the answer to each of them names leads to
the one after it, and nothing is named on the last page. -/
structure Navigates (r : Request) (s : ℕ) (next : Meta → Value)
    (go : Request → Value → Except Error Request) (ask : ℕ → Request) : Prop where
  cuts : ∀ i, (ask i).Cuts r (i * s : ℕ) s
  leads : ∀ i t, (i + 1) * s < t → next (Meta.ofPage (ask i) i s t) ≠ .null ∧
    go (ask i) (next (Meta.ofPage (ask i) i s t)) = .ok (ask (i + 1))
  ends : ∀ i t, ¬(i + 1) * s < t → next (Meta.ofPage (ask i) i s t) = .null

/-- Pages are found by their numbers. -/
theorem navigates_pages (r : Request) (s : ℕ) :
    Navigates r s (·.nextPage) Request.toPage fun i => r.onPage (i + 1 : ℕ) s where
  cuts i := by
    have hcuts := r.onPage_cuts (i + 1 : ℕ) s
    rwa [Nat.cast_succ, add_sub_cancel_right, ← Nat.cast_mul] at hcuts
  leads i t h := by
    have hnext : (Meta.ofPage (r.onPage (i + 1 : ℕ) s) i s t).nextPage = .int (i + 2 : ℕ) :=
      if_pos (decide_eq_true h)
    refine ⟨fun hnull => ?_, ?_⟩
    · rw [hnext] at hnull
      cases hnull
    · rw [hnext, Request.toPage_int, max_eq_right (by omega)]
      rfl
  ends i t h := by
    have hnext : (Meta.ofPage (r.onPage (i + 1 : ℕ) s) i s t).nextPage = .null :=
      if_neg (ne_true_of_eq_false (decide_eq_false h))
    exact hnext

/-- Pages are found by their offsets. -/
theorem navigates_offsets (r : Request) (s : ℕ) :
    Navigates r s (·.nextOffset) Request.toOffset fun i => r.fromOffset (i * s : ℕ) s where
  cuts i := r.fromOffset_cuts (i * s : ℕ) s
  leads i t h := by
    have hnext : (Meta.ofPage (r.fromOffset (i * s : ℕ) s) i s t).nextOffset =
        .int ((i + 1) * s : ℕ) := if_pos (decide_eq_true h)
    refine ⟨fun hnull => ?_, ?_⟩
    · rw [hnext] at hnull
      cases hnull
    · rw [hnext, Request.toOffset_int, max_eq_right (Int.natCast_nonneg _)]
      rfl
  ends i t h := by
    have hnext : (Meta.ofPage (r.fromOffset (i * s : ℕ) s) i s t).nextOffset = .null :=
      if_neg (ne_true_of_eq_false (decide_eq_false h))
    exact hnext

end Query

/-- The pages of a walk through an arrangement, as the answers to a family of requests. -/
def Page.visited (M : List Row) (s : ℕ) (ask : ℕ → Request) : List Page :=
  (List.range (Page.count M.length s)).map fun i => Page.cut M s (ask i) i

section

variable {next : Meta → Value} {go : Request → Value → Except Error Request} {ask : ℕ → Request}
  (h : r.Arranges schema o aliases p keys rows) (hnav : Query.Navigates r s next go ask)
  (hs : 0 < s) (ht : (arrangement aliases keys p rows).length < 2 ^ 53)
include h hnav hs ht

/-- From each page on a walk visits the pages that are left, by induction on their number. -/
theorem Query.Navigates.follows_from {n : ℕ} (i : ℕ)
    (hi : i + n + 1 = Page.count (arrangement aliases keys p rows).length s) :
    Query.Follows (.inMemory aliases rows schema o) next go (ask i)
      ((List.range' i (n + 1)).map fun j => Page.cut (arrangement aliases keys p rows) s (ask j) j) := by
  have hrun : (Query.run (.inMemory aliases rows schema o) (ask i)).outcome =
      .ok (Page.cut (arrangement aliases keys p rows) s (ask i) i) :=
    Query.run_cut h rfl (hnav.cuts i) hs ht (Page.lt_count hs (by omega))
  induction n generalizing i with
  | zero =>
    have hlast : ¬(i + 1) * s < (arrangement aliases keys p rows).length := by
      rw [← Page.succ_lt_count_iff hs]
      omega
    exact .stop hrun (hnav.ends i _ hlast)
  | succ n ih =>
    have hmore : (i + 1) * s < (arrangement aliases keys p rows).length :=
      (Page.succ_lt_count_iff hs).1 (by omega)
    obtain ⟨hne, hgo⟩ := hnav.leads i _ hmore
    refine .step hrun hne hgo (ih (i + 1) (by omega) ?_)
    exact Query.run_cut h rfl (hnav.cuts (i + 1)) hs ht (.inr hmore)

/-- **A walk visits every page**, and there is no other walk. -/
theorem Query.Navigates.follows (pages : List Page) :
    Query.Follows (.inMemory aliases rows schema o) next go (ask 0) pages ↔
      pages = Page.visited (arrangement aliases keys p rows) s ask := by
  have hcount : 0 + (Page.count (arrangement aliases keys p rows).length s - 1) + 1 =
      Page.count (arrangement aliases keys p rows).length s := by
    rw [Page.count]
    omega
  have hwalk := hnav.follows_from h hs ht 0 hcount
  rw [Nat.zero_add] at hcount
  rw [hcount, ← List.range_eq_range'] at hwalk
  constructor
  · exact fun hpages => hpages.unique hwalk
  · rintro rfl
    exact hwalk

end

/-! ### What the pages hold -/

/-- The pages hold an arrangement one after another, `s` rows on each but the last. They answer requests
of a family, and say where they stand and which page precedes them. -/
structure Page.Parts (M : List Row) (s : ℕ) (ask : ℕ → Request) (pages : List Page) : Prop where
  asked : pages.map (·.info.request) = (List.range (max 1 (upward M.length s))).map ask
  joined : pages.flatMap (·.rows) = M
  full : ∀ page ∈ pages.dropLast, page.rows.length = s
  placed : ∀ i (hi : i < pages.length), pages[i].info.currentPage = .int (i + 1 : ℕ) ∧
    pages[i].info.currentOffset = .int (i * s : ℕ)
  counted : ∀ page ∈ pages, page.info.totalCount = .int M.length ∧
    page.info.totalPages = .int (Meta.pagesFor M.length s)
  preceded : ∀ i (hi : i + 1 < pages.length),
    pages[i + 1].info.previousPage = pages[i].info.currentPage ∧
      pages[i + 1].info.previousOffset = pages[i].info.currentOffset

theorem Page.parts_visited (M : List Row) (hs : 0 < s) (ask : ℕ → Request) :
    Page.Parts M s ask (Page.visited M s ask) where
  asked := by
    rw [visited, List.map_map]
    rfl
  joined := by
    have hcover : M.length ≤ count M.length s * s :=
      (le_upward_mul M.length hs).trans (Nat.mul_le_mul_right s (le_max_right _ _))
    rw [visited, List.flatMap_map]
    exact (flatMap_windows M s _).trans (List.take_of_length_le hcover)
  full page hpage := by
    rw [visited, ← List.map_dropLast] at hpage
    obtain ⟨i, hi, rfl⟩ := List.mem_map.1 hpage
    -- All pages but the last one are followed by some row.
    have hlt : i + 1 < count M.length s := by
      obtain ⟨n, hn⟩ := Nat.exists_eq_succ_of_ne_zero
        (Nat.lt_of_lt_of_le Nat.one_pos (le_max_left 1 (upward M.length s)) : 0 < count M.length s).ne'
      rw [hn, Nat.succ_eq_add_one, List.range_succ, List.dropLast_concat, List.mem_range] at hi
      omega
    have hmore := (succ_lt_count_iff hs).1 hlt
    rw [Nat.succ_mul] at hmore
    rw [cut, List.length_take, List.length_drop]
    omega
  placed i hi := by
    simp only [visited, List.getElem_map, List.getElem_range]
    exact ⟨rfl, rfl⟩
  counted page hpage := by
    obtain ⟨i, _, rfl⟩ := List.mem_map.1 hpage
    exact ⟨rfl, rfl⟩
  preceded i hi := by
    simp only [visited, List.getElem_map, List.getElem_range]
    exact Meta.ofPage_succ (ask (i + 1)) i s M.length

/-- The walks by pages and by offsets differ in the requests alone. -/
theorem Page.unechoed_visited (M : List Row) (s : ℕ) (ask ask' : ℕ → Request) :
    (visited M s ask).map unechoed = (visited M s ask').map unechoed := by
  rw [visited, visited, List.map_map, List.map_map]
  rfl

/-- **Walks visit every page once.** The rows that meet the filters are arranged by the ordering of a
request, ties and nulls allowed. From page 1 on, a client that goes to the next page that each answer
names visits all pages in order, and so does a client that goes from offset zero to the next offset. A
page and its offset are answered alike, apart from the request that is repeated. -/
theorem Query.follows_pages (h : r.Arranges schema o aliases p keys rows) (hs : 0 < s)
    (ht : (arrangement aliases keys p rows).length < 2 ^ 53) :
    ∃ pages offsets : List Page,
      (∀ visited, Follows (.inMemory aliases rows schema o) (·.nextPage) Request.toPage
        (r.onPage 1 s) visited ↔ visited = pages) ∧
      (∀ visited, Follows (.inMemory aliases rows schema o) (·.nextOffset) Request.toOffset
        (r.fromOffset 0 s) visited ↔ visited = offsets) ∧
      Page.Parts (arrangement aliases keys p rows) s (fun i => r.onPage (i + 1 : ℕ) s) pages ∧
      Page.Parts (arrangement aliases keys p rows) s (fun i => r.fromOffset (i * s : ℕ) s) offsets ∧
      offsets.map Page.unechoed = pages.map Page.unechoed ∧
      ∀ page : ℤ, Page.unechoed <$>
          (run (.inMemory aliases rows schema o) (r.onPage page s)).outcome =
        Page.unechoed <$>
          (run (.inMemory aliases rows schema o) (r.fromOffset ((page - 1) * s) s)).outcome := by
  refine ⟨Page.visited (arrangement aliases keys p rows) s fun i => r.onPage (i + 1 : ℕ) s,
    Page.visited (arrangement aliases keys p rows) s fun i => r.fromOffset (i * s : ℕ) s,
    (navigates_pages r s).follows h hs ht, ?_, Page.parts_visited _ hs _, Page.parts_visited _ hs _,
    Page.unechoed_visited _ _ _ _, fun page => ?_⟩
  · have hwalk := (navigates_offsets r s).follows h hs ht
    rwa [Nat.zero_mul] at hwalk
  · exact run_cuts_alike _ (r.onPage_cuts page s) (r.fromOffset_cuts _ s)

/-- Rows with numbers, two of which tie, and one with null in place of a number. -/
def tiedRows : List Row :=
  Row.collection [numberedRow 1, .record [("id", .null)], numberedRow 2, numberedRow 1]

/-- The key of the ordering from the greatest number down. -/
def fromGreatestKey : SortKey := ⟨⟨"id", "id", none, [.text "id"], false⟩, .desc⟩

theorem Request.fromGreatest_arranges {rows : List Row}
    (h : ∀ row ∈ rows, ∃ v, row.data.named "id" = v ∧ v.NullOr Kind.integer.Has) :
    Request.fromGreatest.Arranges none .unrestricted [] (.all []) [fromGreatestKey] rows where
  predicate := rfl
  answers row _ := ⟨_, rfl⟩
  found := rfl
  orders k hk := by
    rw [List.mem_singleton.1 hk]
    refine ⟨Kind.integer.Has, Kind.totallyOrdered .integer, fun row hrow => ?_⟩
    obtain ⟨v, hv, hkind⟩ := h row (Ranking.mem_of_mem_matching hrow)
    exact ⟨v, congrArg Except.ok hv, hkind⟩

/-- The walks through four rows by pages of two. -/
theorem Query.follows_pages_tiedRows :
    Request.fromGreatest.Arranges none .unrestricted [] (.all []) [fromGreatestKey] tiedRows ∧
    0 < 2 ∧ (arrangement [] [fromGreatestKey] (.all []) tiedRows).length < 2 ^ 53 ∧
    ∃ pages offsets : List Page,
      (∀ visited, Follows (.inMemory [] tiedRows none .unrestricted) (·.nextPage) Request.toPage
        (Request.fromGreatest.onPage 1 2) visited ↔ visited = pages) ∧
      (∀ visited, Follows (.inMemory [] tiedRows none .unrestricted) (·.nextOffset) Request.toOffset
        (Request.fromGreatest.fromOffset 0 2) visited ↔ visited = offsets) ∧
      Page.Parts (arrangement [] [fromGreatestKey] (.all []) tiedRows) 2
        (fun i => Request.fromGreatest.onPage (i + 1 : ℕ) 2) pages ∧
      Page.Parts (arrangement [] [fromGreatestKey] (.all []) tiedRows) 2
        (fun i => Request.fromGreatest.fromOffset (i * 2 : ℕ) 2) offsets ∧
      offsets.map Page.unechoed = pages.map Page.unechoed ∧
      ∀ page : ℤ, Page.unechoed <$>
          (run (.inMemory [] tiedRows none .unrestricted) (Request.fromGreatest.onPage page 2)).outcome =
        Page.unechoed <$> (run (.inMemory [] tiedRows none .unrestricted)
          (Request.fromGreatest.fromOffset ((page - 1) * 2) 2)).outcome := by
  have harranges : Request.fromGreatest.Arranges none .unrestricted [] (.all []) [fromGreatestKey]
      tiedRows := by
    refine Request.fromGreatest_arranges fun row hrow => ?_
    simp only [tiedRows, Row.collection, List.zipIdx, List.map_cons, List.map_nil, List.mem_cons,
      List.not_mem_nil, or_false] at hrow
    rcases hrow with rfl | rfl | rfl | rfl
    · exact ⟨_, rfl, .inr (.integer 1)⟩
    · exact ⟨_, rfl, .inl rfl⟩
    · exact ⟨_, rfl, .inr (.integer 2)⟩
    · exact ⟨_, rfl, .inr (.integer 1)⟩
  have hlength : (arrangement [] [fromGreatestKey] (.all []) tiedRows).length < 2 ^ 53 := by
    rw [arrangement, List.length_mergeSort]
    exact Nat.lt_of_le_of_lt (List.length_filter_le _ _) (by decide)
  exact ⟨harranges, by decide, hlength, follows_pages harranges (by decide) hlength⟩

/-- A page of `2 ^ 1075` rows holds the only row there is, but the pages are counted as none. -/
theorem Query.run_hugePage : ∃ page,
    (run (.inMemory [] (Row.collection [numberedRow 1]) none .unrestricted)
      (Request.fromGreatest.onPage 1 Binary64.underflow)).outcome = .ok page ∧
    page.rows = Row.collection [numberedRow 1] ∧ page.info.totalCount = .int 1 ∧
    page.info.totalPages = .int 0 ∧ upward 1 Binary64.underflow = 1 := by
  have hpos : 0 < Binary64.underflow := Nat.zero_lt_of_lt Binary64.one_lt_underflow
  have harranges : Request.fromGreatest.Arranges none .unrestricted [] (.all []) [fromGreatestKey]
      (Row.collection [numberedRow 1]) := by
    refine Request.fromGreatest_arranges fun row hrow => ?_
    rw [List.mem_singleton.1 hrow]
    exact ⟨_, rfl, .inr (.integer 1)⟩
  have hrows : arrangement [] [fromGreatestKey] (.all []) (Row.collection [numberedRow 1]) =
      Row.collection [numberedRow 1] := List.mergeSort_singleton _
  have hcuts := (Query.navigates_pages Request.fromGreatest Binary64.underflow).cuts 0
  have hrun := Query.run_cut harranges hrows.symm hcuts hpos (by decide) (.inl rfl)
  have hlength : (Row.collection [numberedRow 1]).length = 1 := rfl
  refine ⟨_, hrun, ?_, rfl, ?_, ?_⟩
  · rw [Page.cut, Nat.zero_mul, List.drop_zero]
    exact List.take_of_length_le (Nat.succ_le_of_lt hpos)
  · have hnone : Meta.pagesFor 1 Binary64.underflow = 0 :=
      if_neg (by rw [Nat.one_mul]; exact Nat.lt_irrefl _)
    simp only [Page.cut, Meta.ofPage, hlength, hnone, Nat.cast_zero]
  · rw [upward, Nat.add_sub_cancel_left, Nat.div_self hpos]

end Sieve
