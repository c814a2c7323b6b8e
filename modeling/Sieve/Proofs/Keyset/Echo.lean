import Sieve.Proofs.Keyset.Walk
import Sieve.Proofs.Validation.Continued
import Sieve.Proofs.Value.Stored

/-!
# Tokens that are given back

A page of rows after a cursor, or before one, comes with the tokens of its first and its last row. Who
gives one of them back, beside the parameters of that page, is understood: the token holds the values of
the row in the fields of the ordering, and they fit these fields. But a cursor holds each field once, so
its token never fits an ordering that names a field twice.

* `Query.run_cursors`: the rows of a page are rows of the collection, and its tokens are theirs;
* `Cursor.IsOf`: the fields and the values of the cursor of a row;
* `Carried`, `Cursor.holds_settled`: values that fit their fields still fit when they come back;
* `Params.Echoes`, `Params.validateWith_echo`: what becomes of parameters with a token that was given out;
* `Params.ownToken_refused`: a page whose token is refused.
-/

namespace Sieve

variable {schema : Option Schema} {aliases : Aliases} {rows : List Row} {o : Options} {r : Request}

/-! ### Pages -/

theorem mem_of_slice {α : Type} {xs : List α} {start : Int} {stop : Option Int} {x : α}
    (h : x ∈ slice xs start stop) : x ∈ xs :=
  List.mem_of_mem_drop (List.mem_of_mem_take h)

theorem mem_of_window {α : Type} {xs ys : List α} {limit offset : Value} {x : α}
    (h : window xs limit offset = .ok ys) (hx : x ∈ ys) : x ∈ xs := by
  obtain ⟨stop, _, h⟩ := Outcome.bind_eq_ok_iff.1 h
  obtain ⟨a, _, h⟩ := Outcome.bind_eq_ok_iff.1 h
  obtain ⟨b, _, h⟩ := Outcome.bind_eq_ok_iff.1 h
  cases h
  exact mem_of_slice hx

theorem mem_of_sortRows {keys : List SortKey} {xs ys : List Row} {row : Row}
    (h : sortRows aliases keys xs = .ok ys) (hrow : row ∈ ys) : row ∈ xs := by
  unfold sortRows at h
  split at h
  · cases h
    exact hrow
  · exact (Insertion.perm_of_sortBy h).subset hrow

/-- What a plan fetches is among the rows. -/
theorem mem_of_fetch {plan : Plan} {fetched : List Row} {row : Row}
    (h : fetch aliases rows plan = .ok fetched) (hrow : row ∈ fetched) : row ∈ rows := by
  obtain ⟨selected, hselected, h⟩ := Outcome.bind_eq_ok_iff.1 h
  obtain ⟨sorted, hsorted, h⟩ := Outcome.bind_eq_ok_iff.1 h
  exact Outcome.mem_of_filterM hselected (mem_of_sortRows hsorted (mem_of_window h hrow))

theorem Query.mem_of_pageRows {fetched page : List Row} {row : Row}
    (h : pageRows r fetched = .ok page) (hrow : row ∈ page) : row ∈ fetched := by
  unfold pageRows at h
  split at h
  · obtain ⟨stop, _, h⟩ := Outcome.bind_eq_ok_iff.1 h
    cases h
    have hslice : row ∈ slice fetched 0 stop := by
      split at hrow
      · exact List.mem_reverse.1 hrow
      · exact hrow
    exact mem_of_slice hslice
  · cases h
    exact hrow

theorem Query.mem_of_fetchPage {page : List Row} {fetched : Nat} {row : Row}
    (h : (fetchPage (.inMemory aliases rows schema o) r).outcome = .ok (page, fetched))
    (hrow : row ∈ page) : row ∈ rows := by
  simp only [fetchPage, Traced.bind_outcome, Traced.lift_outcome] at h
  obtain ⟨plan, _, h⟩ := Outcome.bind_eq_ok_iff.1 h
  obtain ⟨all, hall, h⟩ := Outcome.bind_eq_ok_iff.1 h
  obtain ⟨kept, hkept, h⟩ := Outcome.bind_eq_ok_iff.1 h
  cases h
  exact mem_of_fetch hall (mem_of_pageRows hkept hrow)

/-- **A page for a cursor holds rows of the collection**, and the tokens of its first and its last row. -/
theorem Query.run_cursors (ho : o.cursorFunction = none) (hc : r.byCursor = true) {page : Page}
    (h : (run (.inMemory aliases rows schema o) r).outcome = .ok page) :
    (∀ row ∈ page.rows, row ∈ rows) ∧
      Cursor.Marks schema r.orderNames page.rows.head? page.info.startCursor ∧
      Cursor.Marks schema r.orderNames page.rows.getLast? page.info.endCursor := by
  simp only [run, hc, if_true, Traced.bind_outcome, Traced.lift_outcome] at h
  obtain ⟨⟨held, fetched⟩, hfetch, h⟩ := Outcome.bind_eq_ok_iff.1 h
  obtain ⟨f, hfindings, h⟩ := Outcome.bind_eq_ok_iff.1 h
  obtain ⟨info, hinfo, h⟩ := Outcome.bind_eq_ok_iff.1 h
  obtain ⟨_, _, h⟩ := Outcome.bind_eq_ok_iff.1 h
  cases h
  refine ⟨fun row hrow => mem_of_fetchPage hfetch hrow, ?_⟩
  simp only [cursorFindings, inMemory, ho, Traced.bind_outcome, Traced.lift_outcome] at hfindings
  obtain ⟨e, hends, hfindings⟩ := Outcome.bind_eq_ok_iff.1 hfindings
  obtain ⟨_, _, hfindings⟩ := Outcome.bind_eq_ok_iff.1 hfindings
  cases hfindings
  rw [Meta.of, if_pos (show r.strategy?.any Strategy.byCursor = true from hc)] at hinfo
  obtain ⟨more, _, hinfo⟩ := Outcome.bind_eq_ok_iff.1 hinfo
  cases hinfo
  exact Cursor.marks_of_ends hends

/-! ### Cursors of rows -/

/-- The cursor holds the values of the row in the named fields, each of them once. -/
structure Cursor.IsOf (schema : Option Schema) (row : Value) (names : List String) (c : Cursor) :
    Prop where
  nodup : (c.map Prod.fst).Nodup
  mem : ∀ n, n ∈ c.map Prod.fst ↔ n ∈ names
  values : ∀ e ∈ c, sortValue schema e.1 row = .ok e.2

namespace Cursor

variable {row : Value} {names : List String} {c : Cursor}

theorem fields_put (c : Cursor) (field : String) (v : Value) :
    (c.put field v).map Prod.fst =
      if field ∈ c.map Prod.fst then c.map Prod.fst else c.map Prod.fst ++ [field] := by
  induction c with
  | nil => simp [put]
  | cons e c ih =>
    obtain ⟨f, w⟩ := e
    by_cases hf : f = field
    · subst hf
      simp [put]
    · have hne : ¬field = f := fun h => hf h.symm
      simp only [put, hf, if_false, List.map_cons, ih, List.mem_cons, hne, false_or]
      split <;> simp

theorem mem_put {field : String} {v : Value} {e : String × Value} (h : e ∈ c.put field v) :
    e = (field, v) ∨ e ∈ c := by
  induction c with
  | nil => exact .inl (List.mem_singleton.1 h)
  | cons d c ih =>
    obtain ⟨f, w⟩ := d
    by_cases hf : f = field
    · subst hf
      rw [put, if_pos rfl] at h
      rcases List.mem_cons.1 h with h | h
      · exact .inl h
      · exact .inr (List.mem_cons_of_mem _ h)
    · rw [put, if_neg hf] at h
      rcases List.mem_cons.1 h with rfl | h
      · exact .inr List.mem_cons_self
      · exact (ih h).imp_right (List.mem_cons_of_mem _)

theorem IsOf.put (h : c.IsOf schema row names) {n : String} {v : Value}
    (hv : sortValue schema n row = .ok v) : (c.put n v).IsOf schema row (names ++ [n]) := by
  refine ⟨?_, fun m => ?_, fun e he => ?_⟩
  · rw [fields_put]
    split
    · exact h.nodup
    · next hn => simpa using List.Nodup.concat hn h.nodup
  · rw [fields_put, List.mem_append, ← h.mem, List.mem_singleton]
    split
    · next hn =>
      refine ⟨.inl, ?_⟩
      rintro (hm | rfl)
      · exact hm
      · exact hn
    · rw [List.mem_append, List.mem_singleton]
  · rcases mem_put he with rfl | he
    · exact hv
    · exact h.values e he

/-- **The cursor of a row holds its values in the named fields.** -/
theorem isOf_ofRow (h : ofRow schema row names = .ok c) : c.IsOf schema row names := by
  suffices ∀ (done : Cursor) (seen : List String), done.IsOf schema row seen →
      names.foldlM (fun (c : Cursor) n => do
        return c.put n (← (← resolveField schema n).read schema row)) done = .ok c →
      c.IsOf schema row (seen ++ names) from
    this [] [] ⟨by simp, by simp, by simp⟩ h
  clear h
  induction names with
  | nil =>
    intro done seen hdone h
    cases h
    simpa using hdone
  | cons n names ih =>
    intro done seen hdone h
    rw [List.foldlM_cons] at h
    obtain ⟨next, hnext, h⟩ := Outcome.bind_eq_ok_iff.1 h
    obtain ⟨f, hf, hnext⟩ := Outcome.bind_eq_ok_iff.1 hnext
    obtain ⟨v, hv, hnext⟩ := Outcome.bind_eq_ok_iff.1 hnext
    cases hnext
    have hvalue : sortValue schema n row = .ok v := by simp [sortValue, hf, hv]
    simpa using ih _ _ (hdone.put hvalue) h

/-- A cursor is one for the names if none of them comes twice. -/
theorem IsOf.perm_iff (h : c.IsOf schema row names) :
    (c.map Prod.fst).Perm names ↔ names.Nodup :=
  ⟨fun hperm => hperm.nodup h.nodup,
    fun hnodup => (List.perm_ext_iff_of_nodup h.nodup hnodup).2 h.mem⟩

end Cursor

/-! ### Values of rows -/

theorem StorageType.Stores.settled {t : StorageType} {v : Value} (h : t.Stores v) :
    t.Stores v.settled := by
  cases h with
  | string s =>
    have hsame : (Value.ofRaw s).settled = Value.ofRaw s := by cases s <;> rfl
    rw [hsame]
    exact .string s
  | datetime t => exact .datetime _
  | _ => constructor

/-- The value is one of the storage type of the field. Fields that are not read off a row directly have any
value. -/
def Field.Fits : Field → Value → Prop
  | .plain _ t, v | .join _ _ _ _ t _, v => t.Stores v
  | .isAlias _, _ | .composite .., _ | .custom .., _ => True

/-- The value fits the field with the name, and a token can carry it. -/
structure Carried (schema : Option Schema) (n : String) (v : Value) : Prop where
  fits : ∀ f, resolveField schema n = .ok f → f.Fits v
  portable : v.Portable
  levels : v.levels + 2 ≤ Json.maxDepth
  ints : v.shortInts = true

/-- A value that fits its field is taken as it comes back from a token. -/
theorem typedValue_settled {n : String} {v : Value}
    (h : v = .null ∨ ∀ f, resolveField schema n = .ok f → f.Fits v) :
    Validation.typedValue schema n v.settled = .ok v.settled := by
  unfold Validation.typedValue
  have hcoerce : ∀ f, schema.bind (·.get? n) = some f → ∀ t : StorageType,
      (∀ v, f.Fits v → t.Stores v) → t.coerce v.settled = .ok v.settled := by
    intro f hf t ht
    rcases h with rfl | h
    · rfl
    · obtain ⟨s, rfl, hs⟩ := Option.bind_eq_some_iff.1 hf
      exact (ht v (h f (Schema.resolve_eq_ok_iff.2 hs))).settled.coerce
  split
  · next t hf => exact hcoerce _ hf t fun _ h => h
  · next t _ hf => exact hcoerce _ hf t fun _ h => h
  · rfl

namespace Cursor

variable {row : Value} {names : List String} {c : Cursor}

theorem IsOf.carried (h : c.IsOf schema row names)
    (hrow : Ranking.Holds schema (Carried schema) names row) :
    ∀ e ∈ c, e.2 = .null ∨ Carried schema e.1 e.2 := by
  intro e he
  obtain ⟨v, hv, hcarried⟩ := hrow e.1 ((h.mem e.1).1 (List.mem_map_of_mem he))
  cases (h.values e he).symm.trans hv
  exact hcarried

/-- The token of a row holds its cursor with its offsets settled, which is the cursor itself unless some
offset is shorter than a second. -/
theorem holds_settled (h : c.IsOf schema row names)
    (hrow : Ranking.Holds schema (Carried schema) names row) {token : String}
    (htoken : c.encode = .ok token) :
    Validation.Holds schema token c.settled.raw ∧ (c.settled = c ↔
      ∀ e ∈ c, ∀ o ∈ e.2.offsets, o.microseconds = 0 ∨ 1000000 ≤ o.microseconds.natAbs) := by
  have hcarried := h.carried hrow
  have hportable : c.IsPortable := by
    refine ⟨h.nodup, fun e he => ?_⟩
    rcases hcarried e he with hnull | hcarried
    · rw [hnull]
      exact .null
    · exact hcarried.portable
  have hlevels : ∀ e ∈ c, e.2.levels + 2 ≤ Json.maxDepth := by
    intro e he
    rcases hcarried e he with hnull | hcarried
    · rw [hnull]
      decide
    · exact hcarried.levels
  have hints : ∀ e ∈ c, e.2.shortInts = true := by
    intro e he
    rcases hcarried e he with hnull | hcarried
    · rw [hnull]
      rfl
    · exact hcarried.ints
  have hfits : c.fits = true := List.all_eq_true.2 fun e he => by
    rw [hints e he, decide_eq_true (hlevels e he)]
    rfl
  obtain ⟨token', htoken', hdecode⟩ := encode_ok hportable hints
  cases htoken.symm.trans htoken'
  rw [hfits, if_pos rfl] at hdecode
  refine ⟨⟨c.settled.raw, hdecode, ?_⟩, ?_⟩
  · refine List.forall₂_same.2 fun e he => ?_
    obtain ⟨_, hsettled, rfl⟩ := List.mem_map.1 he
    obtain ⟨d, hd, rfl⟩ := List.mem_map.1 hsettled
    exact ⟨rfl, typedValue_settled ((hcarried d hd).imp_right Carried.fits)⟩
  · rw [settled_eq_self_iff]
    simp only [Offset.settled_eq_self_iff]

end Cursor

/-! ### Parameters that are continued -/

namespace Params

open Validation

variable {s : Strategy} {es : List (Value × Value)} {params : Params}

/-- What becomes of the parameters of a page that are given again with the token of a row, beside the cursor
of the row. -/
structure Echoes (schema : Option Schema) (o : Options) (s : Strategy) (r : Request) (token : String)
    (c : Cursor) (outcome : Except Error Request) : Prop where
  /-- They become the request for the rows on the other side of the row, if no field is named twice. -/
  accepted : r.orderNames.Nodup →
    outcome = .ok { r.toCursor (.text token) (s == .first) with cursor := some c.settled }
  /-- Otherwise the token is refused. -/
  refused : ¬r.orderNames.Nodup → o.replaces = false → outcome =
    .error (.invalidParameters [(s.parameters.2, ["does not match order fields"])]
      (schema.map (·.name)))
  /-- Where invalid parameters are replaced, they become the request for the same page again. -/
  dropped : ¬r.orderNames.Nodup → o.replaces = true → outcome = .ok r
  /-- The request has the cursor of the row if, besides, no offset is shorter than a second. -/
  returns : (∃ r', outcome = .ok r' ∧ r'.cursor = some c) ↔ r.orderNames.Nodup ∧
    ∀ e ∈ c, ∀ o ∈ e.2.offsets, o.microseconds = 0 ∨ 1000000 ≤ o.microseconds.natAbs

theorem echoes_of_handled {token : String} {row n : Value} {c : Cursor}
    {outcome : Except Error Request} (hs : s.byCursor = true) (hcursor : r.cursor = none)
    (hpagination : r.pagination = alone s n .null) (hc : c.IsOf schema row r.orderNames)
    (hrow : Ranking.Holds schema (Carried schema) r.orderNames row) (htoken : c.encode = .ok token)
    (h : Handled schema o s r.orderNames r n [] token outcome) :
    Echoes schema o s r token c outcome := by
  obtain ⟨hholds, hself⟩ := Cursor.holds_settled hc hrow htoken
  have hfields : c.settled.map Prod.fst = c.map Prod.fst := by
    simp [Cursor.settled, Function.comp_def]
  have hperm : (c.settled.raw.map (·.1)).Perm (r.orderNames.map .whole) ↔ r.orderNames.Nodup := by
    rw [RawCursor.perm_raw_iff, hfields]
    exact hc.perm_iff
  have hto : (r.toCursor (.text token) (s == .first)).pagination = alone s n (.text token) := by
    have hsize : r.size = n := by
      rw [Request.size, hpagination, size_alone]
      cases s <;> first | rfl | cases hs
    cases s with
    | first | last =>
      rw [← hsize]
      rfl
    | page | offset => cases hs
  have haccepted : r.orderNames.Nodup →
      outcome = .ok { r.toCursor (.text token) (s == .first) with cursor := some c.settled } := by
    intro hnodup
    obtain ⟨d, hd, hkept⟩ := h.kept _ hholds (hperm.2 hnodup)
    cases Cursor.raw_inj.1 hd
    rw [hkept, ← hto]
    rfl
  have hrefused : ¬r.orderNames.Nodup → o.replaces = false → outcome =
      .error (.invalidParameters [(s.parameters.2, ["does not match order fields"])]
        (schema.map (·.name))) :=
    fun hdup hstrict => h.mismatched _ hholds (mt hperm.1 hdup) hstrict
  have hdropped : ¬r.orderNames.Nodup → o.replaces = true → outcome = .ok r :=
    fun hdup hreplaces => h.unmatched _ hholds (mt hperm.1 hdup) hreplaces
  refine ⟨haccepted, hrefused, hdropped, ?_⟩
  rw [← hself]
  constructor
  · rintro ⟨r', hr', hcursor'⟩
    by_cases hnodup : r.orderNames.Nodup
    · cases (haccepted hnodup).symm.trans hr'
      exact ⟨hnodup, Option.some_inj.1 hcursor'⟩
    · -- Where the token is dropped there is no cursor.
      cases hreplaces : o.replaces with
      | false => cases (hrefused hnodup hreplaces).symm.trans hr'
      | true =>
        cases (hdropped hnodup hreplaces).symm.trans hr'
        cases hcursor.symm.trans hcursor'
  · rintro ⟨hnodup, hsettled⟩
    exact ⟨_, haccepted hnodup, congrArg some hsettled⟩

/-- **The tokens of a page are understood when they are given back**, unless the ordering names a field
twice. -/
theorem validateWith_echo (hs : s.byCursor = true) (hes : params.toEntries = .ok es)
    (huntokened : Untokened s es) (h : (params.validateWith schema o).outcome = .ok r)
    (hr : r.strategy? = some s) (ho : o.cursorFunction = none)
    (hrows : ∀ row ∈ rows, Ranking.Holds schema (Carried schema) r.orderNames row.data) {page : Page}
    (hpage : (Query.run (.inMemory aliases rows schema o) r).outcome = .ok page) {row : Row}
    {v : Value} (hend : page.rows.head? = some row ∧ v = page.info.startCursor ∨
      page.rows.getLast? = some row ∧ v = page.info.endCursor) :
    ∃ c token, Cursor.ofRow schema row.data r.orderNames = .ok c ∧ v = .text token ∧
      ∀ continued : Params, continued.Gives s token es →
        Echoes schema o s r token c (continued.validateWith schema o).outcome := by
  have hbyCursor : r.byCursor = true := by rw [Request.byCursor, hr, Option.any_some, hs]
  obtain ⟨hheld, hstart, hstop⟩ := Query.run_cursors ho hbyCursor hpage
  obtain ⟨hmem, hmarks⟩ : row ∈ page.rows ∧ Cursor.Marks schema r.orderNames (some row) v := by
    rcases hend with ⟨hrow, rfl⟩ | ⟨hrow, rfl⟩
    · exact ⟨List.mem_of_head? hrow, hrow ▸ hstart⟩
    · exact ⟨List.mem_of_getLast? hrow, hrow ▸ hstop⟩
  obtain ⟨token, htoken, rfl⟩ := hmarks
  obtain ⟨c, hc, htoken⟩ := Outcome.bind_eq_ok_iff.1 htoken
  obtain ⟨hcursor, n, hpagination, hhandled⟩ :=
    validateWith_continued hs hes huntokened h hr
  refine ⟨c, token, hc, rfl, fun continued hgives => ?_⟩
  exact echoes_of_handled hs hcursor hpagination (Cursor.isOf_ofRow hc)
    (hrows row (hheld row hmem)) htoken (hhandled token continued hgives)

end Params

/-! ### Tokens of a single row -/

/-- The request for the first row by some fields. -/
def Request.firstBy (names : List String) : Request :=
  ⟨[], some names, none, { Pagination.empty with first := .int 1 }, none⟩

namespace Query

/-- The only row of a collection is the page of a request that asks for the first one. -/
theorem run_onlyRow {names : List String} (hnames : names = ["id"] ∨ names = ["id", "id"]) :
    ∃ (page : Page) (token : String),
      (run (.inMemory [] (Row.collection [numberedRow 7]) (some .numbers) .unrestricted)
        (.firstBy names)).outcome = .ok page ∧
      page.rows = [⟨0, numberedRow 7⟩] ∧ page.info.endCursor = .text token ∧
      Cursor.encode [("id", .int 7)] = .ok token := by
  have hportable : Cursor.IsPortable [("id", .int 7)] :=
    ⟨by simp, by simpa using Value.Portable.int 7⟩
  have hints : ∀ e ∈ ([("id", .int 7)] : Cursor), e.2.shortInts = true := by
    simpa using show (Value.int 7).shortInts = true by decide
  obtain ⟨token, htoken, -⟩ := Cursor.encode_ok hportable hints
  have hends : Cursor.ends (some .numbers) none names [numberedRow 7] = .ok (some (token, token)) := by
    have hmark : Cursor.tokenOf (some .numbers) none names (numberedRow 7) = .ok token := by
      rcases hnames with rfl | rfl <;> exact htoken
    simp only [Cursor.ends, List.getLastD_nil, hmark]
    rfl
  have hselect : selectRows [] (.all []) (Row.collection [numberedRow 7]) =
      .ok [⟨0, numberedRow 7⟩] :=
    selectRows_ok (by simp) fun _ _ => ⟨_, rfl⟩
  have hfetch : (fetchPage
      (.inMemory [] (Row.collection [numberedRow 7]) (some .numbers) .unrestricted)
      (.firstBy names)).outcome = .ok ([⟨0, numberedRow 7⟩], 1) := by
    obtain ⟨keys, hplan, hsort⟩ : ∃ keys,
        ((Request.firstBy names).plan (some .numbers) .unrestricted).outcome =
          .ok ⟨.all [], keys, .int 2, .null, false⟩ ∧
        sortRows [] keys [⟨0, numberedRow 7⟩] = .ok [⟨0, numberedRow 7⟩] := by
      rcases hnames with rfl | rfl <;> exact ⟨_, rfl, rfl⟩
    simp only [fetchPage, inMemory, Source.memory, Traced.bind_outcome, hplan, Outcome.ok_bind,
      Traced.lift_outcome, fetch, hselect, hsort]
    rfl
  have hfindings : (cursorFindings
      (.inMemory [] (Row.collection [numberedRow 7]) (some .numbers) .unrestricted)
      (.firstBy names) [⟨0, numberedRow 7⟩] 1).outcome =
      .ok ⟨.null, .int 1, .text token, .text token, .bool false⟩ := by
    have hcursor : Options.unrestricted.cursorFunction = none := rfl
    simp only [cursorFindings, inMemory, Traced.bind_outcome, Traced.lift_outcome, hcursor]
    show (Cursor.ends (some .numbers) none names [numberedRow 7] >>= _) = _
    rw [hends]
    rfl
  refine ⟨⟨[⟨0, numberedRow 7⟩], { Meta.bare (.firstBy names) with
    startCursor := .text token, endCursor := .text token, pageSize := .int 1 }⟩,
    token, ?_, rfl, rfl, htoken⟩
  have hcursors : (Request.firstBy names).byCursor = true := rfl
  simp only [run, hcursors, if_true, Traced.bind_outcome, hfetch, Outcome.ok_bind, hfindings]
  rfl

end Query

namespace Params

open Validation

theorem holds_numberedRow {names : List String} (hnames : ∀ n ∈ names, n = "id") :
    Ranking.Holds (some .numbers) (Carried (some .numbers)) names (numberedRow 7) := by
  intro n hn
  obtain rfl := hnames n hn
  refine ⟨.int 7, rfl, .inr ⟨?_, .int 7, by decide, by decide⟩⟩
  rintro f ⟨⟩
  exact .integer 7

/-- Parameters for the first row by number. -/
def firstRow : List (Value × Value) :=
  [(.text "order_by", .list [.text "id"]), (.text "first", .int 1)]

/-- The token of the only row, given back, becomes the cursor of the row. -/
theorem validateWith_echo_firstRow :
    Untokened .first firstRow ∧
    ((entries firstRow).validateWith (some .numbers) .unrestricted).outcome = .ok (.firstBy ["id"]) ∧
    ∃ (page : Page) (token : String),
      (Query.run (.inMemory [] (Row.collection [numberedRow 7]) (some .numbers) .unrestricted)
        (.firstBy ["id"])).outcome = .ok page ∧
      page.info.endCursor = .text token ∧
      ∃ r, ((entries (withToken .first (.text token) firstRow)).validateWith (some .numbers)
        .unrestricted).outcome = .ok r ∧ r.cursor = some [("id", .int 7)] := by
  have huntokened : Untokened .first firstRow := rfl
  have hvalid : ((entries firstRow).validateWith (some .numbers) .unrestricted).outcome =
      .ok (.firstBy ["id"]) := rfl
  obtain ⟨page, token, hrun, hrows, hend, _⟩ := Query.run_onlyRow (.inl rfl)
  have hholds : ∀ row ∈ Row.collection [numberedRow 7], Ranking.Holds (some .numbers)
      (Carried (some .numbers)) ["id"] row.data := by
    intro row hrow
    rw [List.mem_singleton.1 hrow]
    exact holds_numberedRow fun n hn => List.mem_singleton.1 hn
  obtain ⟨c, token', hc, htoken, hechoes⟩ := validateWith_echo rfl rfl huntokened hvalid rfl rfl
    hholds hrun (.inr ⟨by rw [hrows]; rfl, rfl⟩)
  have hcursor : Cursor.ofRow (some .numbers) (numberedRow 7) ["id"] = .ok [("id", .int 7)] := rfl
  cases hc.symm.trans hcursor
  cases hend.symm.trans htoken
  exact ⟨huntokened, hvalid, page, token, hrun, hend, (hechoes _ ⟨_, rfl, fun _ => rfl⟩).returns.2
    ⟨List.nodup_singleton _, by simp [Value.offsets]⟩⟩

/-- Parameters for the first row by number, where the ordering names the number twice. -/
def firstRowTwice : List (Value × Value) :=
  [(.text "order_by", .list [.text "id", .text "id"]), (.text "first", .int 1)]

/-- **The token of a page is refused where the ordering names a field twice**, though the page is what these
parameters ask for. -/
theorem ownToken_refused :
    ∃ (r : Request) (page : Page) (token : String),
      ((entries firstRowTwice).validateWith (some .numbers) .unrestricted).outcome = .ok r ∧
      (Query.run (.inMemory [] (Row.collection [numberedRow 7]) (some .numbers) .unrestricted)
        r).outcome = .ok page ∧
      page.rows ≠ [] ∧ page.info.endCursor = .text token ∧
      ((entries (withToken .first (.text token) firstRowTwice)).validateWith (some .numbers)
        .unrestricted).outcome =
          .error (.invalidParameters [("after", ["does not match order fields"])] (some "numbers")) := by
  obtain ⟨page, token, hrun, hrows, hend, hencode⟩ := Query.run_onlyRow (.inr rfl)
  have hvalid : ((entries firstRowTwice).validateWith (some .numbers) .unrestricted).outcome =
      .ok (.firstBy ["id", "id"]) := rfl
  have huntokened : Untokened .first firstRowTwice := rfl
  obtain ⟨hcursor, n, hpagination, hhandled⟩ :=
    validateWith_continued rfl rfl huntokened hvalid rfl
  have hrow : Cursor.ofRow (some .numbers) (numberedRow 7) ["id", "id"] = .ok [("id", .int 7)] := rfl
  have hgives : (entries (withToken .first (.text token) firstRowTwice)).Gives .first token
      firstRowTwice := ⟨_, rfl, fun _ => rfl⟩
  have hechoes := echoes_of_handled rfl hcursor hpagination (Cursor.isOf_ofRow hrow)
    (holds_numberedRow (by simp [Request.firstBy, Request.orderNames])) hencode
    (hhandled token _ hgives)
  exact ⟨_, page, token, hvalid, hrun, by simp [hrows], hend,
    hechoes.refused (by simp [Request.firstBy, Request.orderNames]) rfl⟩

end Params

end Sieve
