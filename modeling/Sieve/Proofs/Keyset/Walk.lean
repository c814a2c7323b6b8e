import Sieve.Proofs.Keyset.Visit

/-!
# Walks through a changing collection

A walk asks for page after page, each after the last row of the page before. In between, rows may
come and go. As long as no page but the last one is empty, the rows of all pages are in strictly
ascending order, so none comes twice, and a page without a next one completes them: every matching
row that was in all collections so far is on some page.

An empty page has no last row, and its token is null. A walk that goes on from there starts again.

* `Query.walk`: the pages of a walk;
* `Query.Advances`: what the pages of a walk from a row hold, `Query.Advances.cons` adds a page;
* `Query.walk_enumerates`: the pages of a walk from the beginning;
* `Query.walk_restarts`: a walk beyond an empty page.
-/

namespace Sieve

open Std (TransCmp OrientedCmp)

/-! ### Candidates -/

namespace Ranking

variable {K : Ranking} {aliases : Aliases} {order : SortOrder} {p : Predicate} {rows : List Row}

theorem isAfter_iff {pivot : Value} {row : Row} :
    K.isAfter order pivot row = true ↔ K.compare order pivot row.data = .lt := by
  have hswap : K.compare order row.data pivot = (K.compare order pivot row.data).swap :=
    OrientedCmp.eq_swap
  rw [isAfter, hswap]
  cases K.compare order pivot row.data <;> decide

theorem mem_candidates_pivot {pivot : Value} {row : Row} :
    row ∈ K.candidates aliases order p rows (some pivot) ↔
      row ∈ matching aliases p rows ∧ K.compare order pivot row.data = .lt := by
  simp [candidates, arranged, isAfter_iff]

/-- The candidates are the matching rows beyond the start. -/
theorem mem_candidates {start : Option Row} {row : Row} :
    row ∈ K.candidates aliases order p rows (start.map (·.data)) ↔
      row ∈ matching aliases p rows ∧
        ∀ pivot ∈ start, K.compare order pivot.data row.data = .lt := by
  cases start with
  | none => simp [candidates, arranged]
  | some pivot => simp [mem_candidates_pivot]

/-- Every matching row of a collection beyond the start is a candidate. -/
theorem exists_mem_candidates {data : List Value} {start : Option Row} {row : Value}
    (hrow : row ∈ data) (hholds : p.holds aliases row = true)
    (hbeyond : ∀ pivot ∈ start, K.compare order pivot.data row = .lt) :
    ∃ x ∈ K.candidates aliases order p (Row.collection data) (start.map (·.data)),
      x.data = row := by
  have hmatching : row ∈ (matching aliases p (Row.collection data)).map (·.data) := by
    rw [map_data_matching]
    exact List.mem_filter.2 ⟨hrow, hholds⟩
  obtain ⟨x, hx, rfl⟩ := List.mem_map.1 hmatching
  exact ⟨x, mem_candidates.2 ⟨hx, hbeyond⟩, rfl⟩

theorem Covers.candidates_ascending (h : K.Covers aliases order p rows) (start : Option Value) :
    Strict.Ascending (K.rowOrder order) (K.candidates aliases order p rows start) := by
  cases start with
  | none => exact h.ascending
  | some pivot => exact h.ascending.filter _

end Ranking

/-! ### Steps of a walk -/

/-- The data of the rows of a page. -/
def Page.data (page : Page) : List Value :=
  page.rows.map (·.data)

namespace Query

variable {K : Ranking} {aliases : Aliases} {order : SortOrder} {p : Predicate}

/-- The pages of visits to collections hold rows beyond the start in strictly ascending order, and
a page without a next one completes them. -/
structure Advances (K : Ranking) (order : SortOrder) (aliases : Aliases) (p : Predicate)
    (start : Option Row) (visits : List (ℕ × List Value)) (pages : List Page) : Prop where
  ascending : (pages.flatMap Page.data).Pairwise fun a b => K.compare order a b = .lt
  beyond : ∀ row ∈ pages.flatMap Page.data, ∀ pivot ∈ start, K.compare order pivot.data row = .lt
  matched : ∀ row ∈ pages.flatMap Page.data,
    ∃ v ∈ visits, row ∈ v.2 ∧ p.holds aliases row = true
  complete : ∀ done page rest, pages = done ++ page :: rest → page.info.hasNext = .bool false →
    ∀ row, p.holds aliases row = true → (∀ v ∈ visits.take (done.length + 1), row ∈ v.2) →
      (∀ pivot ∈ start, K.compare order pivot.data row = .lt) →
      row ∈ (done ++ [page]).flatMap Page.data

theorem Advances.nil (start : Option Row) (visits : List (ℕ × List Value)) :
    Advances K order aliases p start visits [] where
  ascending := .nil
  beyond := by simp
  matched := by simp
  complete := by simp

section Step

variable {start : Option Row} {n : ℕ} {data : List Value} {visits : List (ℕ × List Value)}
  {page : Page} {pages : List Page}
  (hcovers : K.Covers aliases order p (Row.collection data))
  (hrows : page.rows = (K.candidates aliases order p (Row.collection data)
    (start.map (·.data))).take n)
  (hend : page.rows = [] → pages = [])
  (htail : ∀ last, page.rows.getLast? = some last →
    Advances K order aliases p (some last) visits pages)

include hend htail in
/-- What comes on later pages is beyond the last row of the page. -/
theorem exists_last {later : Value} (hlater : later ∈ pages.flatMap Page.data) :
    ∃ last, page.rows.getLast? = some last ∧ K.compare order last.data later = .lt := by
  have hne : page.rows ≠ [] := by
    intro hempty
    rw [hend hempty] at hlater
    cases hlater
  have hlast := List.getLast?_eq_some_getLast hne
  exact ⟨_, hlast, (htail _ hlast).beyond later hlater _ rfl⟩

include hrows in
theorem mem_candidates_of_mem_rows {row : Row} (hrow : row ∈ page.rows) :
    row ∈ matching aliases p (Row.collection data) ∧
      ∀ pivot ∈ start, K.compare order pivot.data row.data = .lt := by
  rw [hrows] at hrow
  exact Ranking.mem_candidates.1 (List.mem_of_mem_take hrow)

include hrows in
/-- The data of a page is that of matching rows of the collection beyond the start. -/
theorem mem_data {row : Value} (hrow : row ∈ page.data) :
    row ∈ data ∧ p.holds aliases row = true ∧
      ∀ pivot ∈ start, K.compare order pivot.data row = .lt := by
  obtain ⟨x, hx, rfl⟩ := List.mem_map.1 hrow
  obtain ⟨hmatching, hbeyond⟩ := mem_candidates_of_mem_rows hrows hx
  obtain ⟨hdata, hholds⟩ := Row.data_mem_of_matching hmatching
  exact ⟨hdata, hholds, hbeyond⟩

include hcovers hrows hend htail in
/-- What comes on later pages is beyond all rows of the page. -/
theorem compare_later {row later : Value} (hrow : row ∈ page.data)
    (hlater : later ∈ pages.flatMap Page.data) : K.compare order row later = .lt := by
  obtain ⟨x, hx, rfl⟩ := List.mem_map.1 hrow
  obtain ⟨last, hlast, hlt⟩ := exists_last hend htail hlater
  rw [hrows] at hx hlast
  rcases (Strict.Ascending.last (hcovers.candidates_ascending _) hlast).1 x hx with rfl | hle
  · exact hlt
  · exact TransCmp.lt_trans hle hlt

include hcovers hrows in
/-- A matching row of the collection beyond the start is on the page or beyond its last row. -/
theorem mem_data_or_beyond {row : Value} (hrow : row ∈ data) (hholds : p.holds aliases row = true)
    (hbeyond : ∀ pivot ∈ start, K.compare order pivot.data row = .lt) :
    row ∈ page.data ∨
      n < (K.candidates aliases order p (Row.collection data) (start.map (·.data))).length ∧
        ∀ last, page.rows.getLast? = some last → K.compare order last.data row = .lt := by
  obtain ⟨x, hx, rfl⟩ := Ranking.exists_mem_candidates hrow hholds hbeyond
  rw [← List.take_append_drop n (K.candidates aliases order p (Row.collection data)
    (start.map (·.data))), List.mem_append, ← hrows] at hx
  rcases hx with hx | hx
  · exact .inl (List.mem_map_of_mem hx)
  · refine .inr ⟨?_, fun last hlast => ?_⟩
    · by_contra hlength
      rw [List.drop_of_length_le (by omega)] at hx
      cases hx
    · rw [hrows] at hlast
      exact (Strict.Ascending.last (hcovers.candidates_ascending _) hlast).2 x hx

include hcovers hrows hend htail in
/-- A walk goes on after a page that holds the next rows of the collection. -/
theorem Advances.cons (hnext : page.info.hasNext = .bool (decide (n < (K.candidates aliases order p
      (Row.collection data) (start.map (·.data))).length))) :
    Advances K order aliases p start ((n, data) :: visits) (page :: pages) where
  ascending := by
    rw [List.flatMap_cons, List.pairwise_append]
    refine ⟨?_, ?_, fun row hrow later hlater =>
      compare_later hcovers hrows hend htail hrow hlater⟩
    · rw [Page.data, List.pairwise_map, hrows]
      exact (hcovers.candidates_ascending _).take
    · cases hlast : page.rows.getLast? with
      | none =>
        rw [hend (List.getLast?_eq_none_iff.1 hlast)]
        exact .nil
      | some last => exact (htail last hlast).ascending
  beyond := by
    intro row hrow pivot hpivot
    rw [List.flatMap_cons, List.mem_append] at hrow
    rcases hrow with hrow | hrow
    · exact (mem_data hrows hrow).2.2 pivot hpivot
    · obtain ⟨last, hlast, hlt⟩ := exists_last hend htail hrow
      have hrow := mem_candidates_of_mem_rows hrows (List.mem_of_getLast? hlast)
      exact TransCmp.lt_trans (hrow.2 pivot hpivot) hlt
  matched := by
    intro row hrow
    rw [List.flatMap_cons, List.mem_append] at hrow
    rcases hrow with hrow | hrow
    · obtain ⟨hdata, hholds, _⟩ := mem_data hrows hrow
      exact ⟨(n, data), by simp, hdata, hholds⟩
    · obtain ⟨last, hlast, _⟩ := exists_last hend htail hrow
      obtain ⟨v, hv, hmatch⟩ := (htail last hlast).matched row hrow
      exact ⟨v, List.mem_cons_of_mem _ hv, hmatch⟩
  complete := by
    intro done other rest hsplit hdone row hholds hpresent hbeyond
    have hdata : row ∈ data := hpresent (n, data) (by simp)
    have hsides := mem_data_or_beyond hcovers hrows hdata hholds hbeyond
    cases done with
    | nil =>
      -- Nothing is left behind a page without a next one.
      obtain ⟨rfl, rfl⟩ := List.cons.inj hsplit
      rw [hnext, Value.bool.injEq, decide_eq_false_iff_not] at hdone
      rcases hsides with hside | ⟨hlength, _⟩
      · simpa using hside
      · exact absurd hlength hdone
    | cons first done =>
      obtain ⟨rfl, rfl⟩ := List.cons.inj hsplit
      rw [List.cons_append, List.flatMap_cons, List.mem_append]
      rcases hsides with hside | ⟨_, hside⟩
      · exact .inl hside
      · have hne : page.rows ≠ [] := fun hempty => by
          have := hend hempty
          simp at this
        have hlast := List.getLast?_eq_some_getLast hne
        refine .inr ((htail _ hlast).complete done other rest rfl hdone row hholds ?_ ?_)
        · intro v hv
          exact hpresent v (by simp [hv])
        · rintro pivot ⟨⟩
          exact hside _ hlast

end Step

end Query

/-! ### Walks -/

namespace Query

/-- The pages of a walk from a token on. Each visit is for some rows of a collection after the last
row of the page before. -/
def walk (schema : Option Schema) (o : Options) (aliases : Aliases) (base : List (Value × Value)) :
    Value → List (ℕ × List Value) → Except Error (List Page)
  | _, [] => .ok []
  | after, (n, data) :: visits => do
    let page ← visit schema o aliases base n after data
    let pages ← walk schema o aliases base page.info.endCursor visits
    return page :: pages

variable {s : Schema} {o : Options} {aliases : Aliases} {kinds : String → Kind} {r : Request}
  {p : Predicate} {base : List (Value × Value)} {visits : List (ℕ × List Value)}

namespace Setting

variable (h : Setting s o kinds base r)
  (hranked : ∀ v ∈ visits, r.Ranked (some s) o aliases (fun n => (kinds n).Has) p v.2)
include h hranked

/-- The pages of a walk from a row advance from the row, unless it goes on beyond an empty page. -/
theorem walk_advances {start : Option Row} {after : Value}
    (hmarks : Cursor.Marks (some s) r.orderNames start after)
    (hstart : ∀ row ∈ start, HasKinds (some s) kinds r.orderNames row.data) {pages : List Page}
    (hwalk : walk (some s) o aliases base after visits = .ok pages)
    (hfull : ∀ page ∈ pages.dropLast, page.rows ≠ []) :
    Advances (.byKinds s kinds) r.sort aliases p start visits pages := by
  induction visits generalizing start after pages with
  | nil =>
    cases hwalk
    exact .nil start []
  | cons v visits ih =>
    obtain ⟨n, data⟩ := v
    obtain ⟨page, hvisit, hwalk⟩ := Outcome.bind_eq_ok_iff.1 hwalk
    obtain ⟨rest, hrest, hwalk⟩ := Outcome.bind_eq_ok_iff.1 hwalk
    cases hwalk
    have hdata := hranked (n, data) (by simp)
    have hshows := h.visit_shows hmarks hstart hdata hvisit
    refine .cons (hdata.covers h.hasPaths) hshows.held ?_ ?_ hshows.hasNext
    · -- Only the last page of the walk may be empty.
      intro hempty
      by_contra hne
      have hmem : page ∈ (page :: rest).dropLast := by
        rw [List.dropLast_cons_of_ne_nil hne]
        exact List.mem_cons_self
      exact hfull page hmem hempty
    · intro last hlast
      have hstop := hshows.stop
      rw [← hshows.held, hlast] at hstop
      have hmatching := (mem_candidates_of_mem_rows hshows.held (List.mem_of_getLast? hlast)).1
      obtain ⟨hmem, hholds⟩ := Row.data_mem_of_matching hmatching
      refine ih (fun v hv => hranked v (by simp [hv])) hstop ?_ hrest ?_
      · rintro row ⟨⟩
        exact hdata.hasKinds hmem hholds
      · intro other hother
        refine hfull other ?_
        cases rest with
        | nil => cases hother
        | cons first rest => exact List.mem_cons_of_mem _ hother

/-- A walk comes to its end if sizes are admitted and tokens can carry the rows. -/
theorem walk_ok (hsizes : ∀ v ∈ visits, o.AdmitsSize v.1)
    (hcarry : ∀ v ∈ visits, ∀ row ∈ v.2, p.holds aliases row = true →
      CanCarry (some s) r.orderNames row)
    {start : Option Row} {after : Value} (hmarks : Cursor.Marks (some s) r.orderNames start after)
    (hstart : ∀ row ∈ start, HasKinds (some s) kinds r.orderNames row.data) :
    ∃ pages, walk (some s) o aliases base after visits = .ok pages := by
  induction visits generalizing start after with
  | nil => exact ⟨[], rfl⟩
  | cons v visits ih =>
    obtain ⟨n, data⟩ := v
    have hdata := hranked (n, data) (by simp)
    obtain ⟨page, hvisit⟩ := h.visit_ok hmarks hstart hdata (hsizes (n, data) (by simp))
      (hcarry (n, data) (by simp))
    have hshows := h.visit_shows hmarks hstart hdata hvisit
    obtain ⟨pages, hpages⟩ := ih (fun v hv => hranked v (by simp [hv]))
      (fun v hv => hsizes v (by simp [hv])) (fun v hv => hcarry v (by simp [hv])) hshows.stop (by
        intro row hrow
        have hmem := Ranking.mem_candidates.1 (List.mem_of_mem_take (List.mem_of_getLast? hrow))
        obtain ⟨hd, hp⟩ := Row.data_mem_of_matching hmem.1
        exact hdata.hasKinds hd hp)
    refine ⟨page :: pages, ?_⟩
    rw [walk, hvisit, Outcome.ok_bind, hpages]
    rfl

omit hranked in
theorem direct : Ranking.Direct (some s) r.sort.names := by
  rw [Request.sort_names]
  intro n hn
  obtain ⟨f, hf, hdirect, _⟩ := h.ordering.stored n hn
  exact ⟨f, hf, hdirect⟩

omit hranked in
/-- Rows of any collections compare by the ranking. -/
theorem compareRows_ok {a b : Value} (ha : HasKinds (some s) kinds r.orderNames a)
    (hb : HasKinds (some s) kinds r.orderNames b) :
    compareRows aliases (r.sort.map (Ranking.byKinds s kinds).key) a b =
      .ok ((Ranking.byKinds s kinds).compare r.sort a b) := by
  rw [← Request.sort_names] at ha hb
  obtain ⟨ha, hfa⟩ := hasKinds_iff.1 ha
  obtain ⟨hb, hfb⟩ := hasKinds_iff.1 hb
  exact Ranking.compareRows_ok (Ranking.reads_typed h.hasPaths h.direct ha)
    (Ranking.reads_typed h.hasPaths h.direct hb) (Ranking.full_typed ha hfa)
    (Ranking.full_typed hb hfb)
    (Ranking.compares_typed (fun n _ => (kinds n).totallyOrdered) ha hb)

end Setting

/-- The pages hold matching rows in strictly ascending order, none of them twice. Once a page has no
next one, every matching row that was in all collections so far is on it or on a page before. -/
structure Enumerates (keys : List SortKey) (aliases : Aliases) (p : Predicate)
    (visits : List (ℕ × List Value)) (pages : List Page) : Prop where
  ascending : (pages.flatMap Page.data).Pairwise fun a b => compareRows aliases keys a b = .ok .lt
  nodup : (pages.flatMap Page.data).Nodup
  matched : ∀ row ∈ pages.flatMap Page.data,
    ∃ v ∈ visits, row ∈ v.2 ∧ p.holds aliases row = true
  complete : ∀ done page rest, pages = done ++ page :: rest → page.info.hasNext = .bool false →
    ∀ row, p.holds aliases row = true → (∀ v ∈ visits.take (done.length + 1), row ∈ v.2) →
      row ∈ (done ++ [page]).flatMap Page.data

/-- **A walk enumerates the matching rows.** The pages of a walk from the beginning, of which only
the last one may be empty, hold the matching rows in strictly ascending order, whatever rows come
and go in between. A walk with admitted sizes has all of its pages if tokens can carry the matching rows. -/
theorem walk_enumerates (h : Setting s o kinds base r)
    (hranked : ∀ v ∈ visits, r.Ranked (some s) o aliases (fun n => (kinds n).Has) p v.2) :
    ∃ keys, r.sort.keys (some s) = .ok keys ∧
      (∀ pages, walk (some s) o aliases base .null visits = .ok pages →
        (∀ page ∈ pages.dropLast, page.rows ≠ []) → Enumerates keys aliases p visits pages) ∧
      ((∀ v ∈ visits, o.AdmitsSize v.1) →
        (∀ v ∈ visits, ∀ row ∈ v.2, p.holds aliases row = true →
          CanCarry (some s) r.orderNames row) →
        ∃ pages, walk (some s) o aliases base .null visits = .ok pages) := by
  have hmarks : Cursor.Marks (some s) r.orderNames none .null := rfl
  refine ⟨r.sort.map (Ranking.byKinds s kinds).key,
    Ranking.keys_ok (Ranking.locates_typed h.direct), fun pages hwalk hfull => ?_,
    fun hsizes hcarry => ?_⟩
  · have hadvances := h.walk_advances hranked hmarks (by simp) hwalk hfull
    have hkinds : ∀ row ∈ pages.flatMap Page.data, HasKinds (some s) kinds r.orderNames row := by
      intro row hrow
      obtain ⟨v, hv, hdata, hholds⟩ := hadvances.matched row hrow
      exact (hranked v hv).hasKinds hdata hholds
    refine ⟨?_, ?_, hadvances.matched, ?_⟩
    · refine hadvances.ascending.imp_of_mem fun {a b} ha hb hab => ?_
      rw [h.compareRows_ok (hkinds a ha) (hkinds b hb), hab]
    · refine hadvances.ascending.imp fun {a b} hab heq => ?_
      have hself : (Ranking.byKinds s kinds).compare r.sort a a = .eq := Std.ReflCmp.compare_self
      rw [← heq, hself] at hab
      cases hab
    · intro done page rest hsplit hdone row hholds hpresent
      exact hadvances.complete done page rest hsplit hdone row hholds hpresent (by simp)
  · exact h.walk_ok hranked hsizes hcarry hmarks (by simp)

end Query

/-! ### Walks through rows with numbers -/

/-- Declarations of a sortable field with integers. -/
def Declarations.numbers : Declarations :=
  { (default : Declarations) with
    name := "numbers"
    fields := [("id", some (.text "integer"))]
    filterable := .list []
    sortable := .list [.text "id"] }

/-- The schema of these declarations. -/
def Schema.numbers : Schema :=
  ⟨"numbers", [.plain "id" .integer], [], ["id"], .null, .null, .null, .null, .null⟩

/-- The request for the first row by number. -/
def Request.firstById : Request :=
  ⟨[], some ["id"], none, { Pagination.empty with first := .int 1 }, none⟩

namespace Query

/-- Parameters for an ordering by number. -/
def byId : List (Value × Value) :=
  [(.text "order_by", .list [.text "id"])]

theorem setting_byId :
    Setting .numbers .unrestricted (fun _ => .integer) byId .firstById where
  declared := ⟨.numbers, rfl⟩
  rejects := rfl
  cursors := rfl
  valid := ⟨1, rfl⟩
  ordering := by
    refine ⟨by decide, fun n hn => ?_⟩
    rw [List.mem_singleton.1 hn]
    exact ⟨.plain "id" .integer, rfl, trivial, rfl⟩

theorem sortValue_numbers (i : Int) :
    sortValue (some .numbers) "id" (numberedRow i) = .ok (.int i) := rfl

theorem ranked_byId {ids : List Int} (hids : ids.Nodup) :
    Request.firstById.Ranked (some .numbers) .unrestricted [] (fun _ => Kind.integer.Has) (.all [])
      (ids.map numberedRow) := by
  refine ranked_numberedRow sortValue_numbers rfl (fun n hn => ?_) rfl hids
  rw [List.mem_singleton.1 hn]
  exact ⟨_, rfl, trivial⟩

/-- A page of one row of a collection with numbers. -/
theorem visit_byId {ids : List Int} (hids : ids.Nodup)
    (hdigits : ∀ i ∈ ids, (Numeral.digitsOf i.natAbs).length ≤ Numeral.maxDigits)
    {start : Option Row} {after : Value} (hmarks : Cursor.Marks (some .numbers) ["id"] start after)
    (hstart : ∀ row ∈ start, ∃ i : Int, row.data = numberedRow i) :
    ∃ page, visit (some .numbers) .unrestricted [] byId 1 after (ids.map numberedRow) = .ok page ∧
      page.rows = ((Ranking.byKinds .numbers fun _ => .integer).candidates []
        Request.firstById.sort (.all []) (Row.collection (ids.map numberedRow))
        (start.map (·.data))).take 1 ∧
      Cursor.Marks (some .numbers) ["id"] page.rows.getLast? page.info.endCursor := by
  have hkinds : ∀ row ∈ start, HasKinds (some .numbers) (fun _ => .integer) ["id"] row.data := by
    intro row hrow
    obtain ⟨i, hi⟩ := hstart row hrow
    rw [hi]
    exact hasKinds_numberedRow sortValue_numbers i
  have hcarry : ∀ row ∈ ids.map numberedRow, Predicate.holds [] (.all []) row = true →
      CanCarry (some .numbers) ["id"] row := by
    simp only [List.forall_mem_map]
    exact fun i hi _ => canCarry_numberedRow sortValue_numbers (hdigits i hi)
  obtain ⟨page, hvisit⟩ := setting_byId.visit_ok hmarks hkinds (ranked_byId hids)
    ⟨Nat.one_pos, .inl rfl⟩ hcarry
  have hshows := setting_byId.visit_shows hmarks hkinds (ranked_byId hids) hvisit
  refine ⟨page, hvisit, hshows.held, ?_⟩
  rw [hshows.held]
  exact hshows.stop

/-- Two visits, between which the first row is taken away and another one comes. -/
def changing : List (ℕ × List Value) :=
  [(1, [1, 2].map numberedRow), (2, [2, 3].map numberedRow)]

theorem walk_enumerates_changing :
    Setting .numbers .unrestricted (fun _ => .integer) byId .firstById ∧
    (∀ v ∈ changing, Request.firstById.Ranked (some .numbers) .unrestricted []
      (fun _ => Kind.integer.Has) (.all []) v.2) ∧
    ∃ keys pages, Request.firstById.sort.keys (some .numbers) = .ok keys ∧
      walk (some .numbers) .unrestricted [] byId .null changing = .ok pages ∧
      (∀ page ∈ pages.dropLast, page.rows ≠ []) ∧
      Enumerates keys [] (.all []) changing pages := by
  have hranked : ∀ v ∈ changing, Request.firstById.Ranked (some .numbers) .unrestricted []
      (fun _ => Kind.integer.Has) (.all []) v.2 := by
    simp only [changing, List.forall_mem_cons]
    exact ⟨ranked_byId (by decide), ranked_byId (by decide), by simp⟩
  obtain ⟨keys, hkeys, hsound, htotal⟩ := walk_enumerates setting_byId hranked
  have hsizes : ∀ v ∈ changing, Options.unrestricted.AdmitsSize v.1 := by
    simp only [changing, List.forall_mem_cons]
    exact ⟨⟨by decide, .inl rfl⟩, ⟨by decide, .inl rfl⟩, by simp⟩
  have hcarry : ∀ v ∈ changing, ∀ row ∈ v.2, Predicate.holds [] (.all []) row = true →
      CanCarry (some .numbers) Request.firstById.orderNames row := by
    simp only [changing, List.forall_mem_cons, List.map_cons, List.map_nil]
    refine ⟨⟨fun _ => ?_, fun _ => ?_, by simp⟩, ⟨fun _ => ?_, fun _ => ?_, by simp⟩, by simp⟩
    all_goals exact canCarry_numberedRow sortValue_numbers (by decide)
  obtain ⟨pages, hwalk⟩ := htotal hsizes hcarry
  refine ⟨setting_byId, hranked, keys, pages, hkeys, hwalk, ?_⟩
  have hfull : ∀ page ∈ pages.dropLast, page.rows ≠ [] := by
    obtain ⟨first, hfirst, hwalk⟩ := Outcome.bind_eq_ok_iff.1 hwalk
    obtain ⟨rest, hrest, hwalk⟩ := Outcome.bind_eq_ok_iff.1 hwalk
    obtain ⟨second, _, hrest⟩ := Outcome.bind_eq_ok_iff.1 hrest
    cases hrest
    cases hwalk
    -- Both rows of the first collection match, so its page has one of them.
    obtain ⟨page, hpage, hrows, _⟩ := visit_byId (show [(1 : Int), 2].Nodup by decide) (by decide)
      (show Cursor.Marks (some .numbers) ["id"] none .null from rfl) (by simp)
    rw [hfirst] at hpage
    cases hpage
    intro page hmem
    rw [List.dropLast_cons_of_ne_nil (by simp), List.dropLast_singleton, List.mem_singleton] at hmem
    subst hmem
    rw [hrows]
    refine List.ne_nil_of_length_pos ?_
    rw [List.length_take]
    have hlength : ((Ranking.byKinds .numbers fun _ => .integer).candidates []
        Request.firstById.sort (.all []) (Row.collection ([1, 2].map numberedRow)) none).length = 2 :=
      Strict.length_sorted _
    show 0 < min 1 ((Ranking.byKinds .numbers fun _ => .integer).candidates []
        Request.firstById.sort (.all []) (Row.collection ([1, 2].map numberedRow)) none).length
    rw [hlength]
    decide
  exact ⟨hfull, hsound pages hwalk hfull⟩

/-- The only row of a collection comes first, and does not come after itself. -/
theorem candidates_one (K : Ranking) (order : SortOrder) (aliases : Aliases) (row : Value) :
    K.candidates aliases order (.all []) (Row.collection [row]) none = [⟨0, row⟩] ∧
      K.candidates aliases order (.all []) (Row.collection [row]) (some row) = [] := by
  have hmatching : matching aliases (.all []) (Row.collection [row]) = [⟨0, row⟩] := rfl
  have harranged : K.arranged aliases order (.all []) (Row.collection [row]) = [⟨0, row⟩] := by
    rw [Ranking.arranged, hmatching]
    exact List.perm_singleton.1 (Strict.sorted_perm _)
  refine ⟨harranged, ?_⟩
  have hself : K.compare order row row = .eq := Std.ReflCmp.compare_self
  simp [Ranking.candidates, harranged, Ranking.isAfter, hself]

/-- **A walk that goes on beyond an empty page starts again**: after the only row there is an empty
page, its token is null, and the page after null holds the row again. -/
theorem walk_restarts :
    Setting .numbers .unrestricted (fun _ => .integer) byId .firstById ∧
    Request.firstById.Ranked (some .numbers) .unrestricted [] (fun _ => Kind.integer.Has) (.all [])
      [numberedRow 1] ∧ Options.unrestricted.AdmitsSize 1 ∧
    ∃ keys pages, Request.firstById.sort.keys (some .numbers) = .ok keys ∧
      walk (some .numbers) .unrestricted [] byId .null
        [(1, [numberedRow 1]), (1, [numberedRow 1]), (1, [numberedRow 1])] = .ok pages ∧
      ¬ (pages.flatMap Page.data).Pairwise fun a b => compareRows [] keys a b = .ok .lt := by
  have hone : [(1 : Int)].Nodup := by decide
  have hranked := ranked_byId hone
  obtain ⟨hnone, hsome⟩ := candidates_one (.byKinds .numbers fun _ => .integer)
    Request.firstById.sort [] (numberedRow 1)
  have hbegin : ∃ page,
      visit (some .numbers) .unrestricted [] byId 1 .null [numberedRow 1] = .ok page ∧
        page.rows = [⟨0, numberedRow 1⟩] ∧
        Cursor.Marks (some .numbers) ["id"] (some ⟨0, numberedRow 1⟩) page.info.endCursor := by
    have hnull : Cursor.Marks (some .numbers) ["id"] none .null := rfl
    obtain ⟨page, hvisit, hrows, hmarks⟩ := visit_byId hone (by decide) hnull (by simp)
    have hheld : page.rows = [⟨0, numberedRow 1⟩] := hrows.trans (congrArg (List.take 1) hnone)
    rw [hheld] at hmarks
    exact ⟨page, hvisit, hheld, hmarks⟩
  obtain ⟨first, hfirst, hrows, hmarks⟩ := hbegin
  -- After the row there is nothing, and so no token.
  obtain ⟨second, hsecond, hrows', hmarks'⟩ := visit_byId hone (by decide) hmarks (by
    rintro row ⟨⟩
    exact ⟨1, rfl⟩)
  have hempty : second.rows = [] := hrows'.trans (congrArg (List.take 1) hsome)
  rw [hempty] at hmarks'
  have hnull : second.info.endCursor = .null := hmarks'
  refine ⟨setting_byId, hranked, ⟨Nat.one_pos, .inl rfl⟩,
    Request.firstById.sort.map (Ranking.byKinds .numbers fun _ => .integer).key,
    [first, second, first], Ranking.keys_ok (Ranking.locates_typed setting_byId.direct), ?_, ?_⟩
  · have hsecond' : visit (some .numbers) .unrestricted [] byId 1 first.info.endCursor
        [numberedRow 1] = .ok second := hsecond
    simp only [walk, hfirst, hsecond', hnull, Outcome.ok_bind]
    rfl
  · have hkinds := hasKinds_numberedRow sortValue_numbers 1
    have hcompare : compareRows [] (Request.firstById.sort.map
        (Ranking.byKinds .numbers fun _ => .integer).key) (numberedRow 1) (numberedRow 1) = .ok _ :=
      setting_byId.compareRows_ok hkinds hkinds
    have hself : (Ranking.byKinds .numbers fun _ => .integer).compare Request.firstById.sort
        (numberedRow 1) (numberedRow 1) = .eq := Std.ReflCmp.compare_self
    simp [Page.data, hrows, hempty, hcompare, hself]

end Query

end Sieve
