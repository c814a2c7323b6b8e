import Mathlib.Logic.Relation
import Sieve.Proofs.Cursor.RoundTrip
import Sieve.Proofs.Validation.Failures
import Sieve.Proofs.Validation.Limits
import Sieve.Request.Navigation

/-!
# Navigation from valid requests

Whatever steps are taken from a valid request, the requests on the way use one pagination strategy and
ask for as many rows, from a page or an offset that exists. A decoded cursor is carried along only beside
the token that it was decoded from.

* `Request.Navigates`: one step, by any of the functions that lead from a request to another one;
* `Request.Moves`, `Request.Navigates.moves`: what a step does to the pagination;
* `Request.Continues`: what is true of every request that navigation leads to;
* `Params.validateWith_navigates`: navigation from a valid request.
-/

namespace Sieve

/-- The page and the offset exist, where they are given. -/
structure Pagination.InBounds (p : Pagination) : Prop where
  page : p.page = .null ∨ p.page.AtLeast 1
  offset : p.offset = .null ∨ p.offset.AtLeast 0

/-! ### Steps -/

namespace Request

/-- One step of navigation. -/
inductive Navigates : Request → Request → Prop
  | pushOrder {r r' : Request} {field : String} {cycle : List Value}
      (h : r.pushOrderNamed field cycle = .ok r') : Navigates r r'
  | resetOrder (r : Request) : Navigates r r.resetOrder
  | resetFilters (r : Request) : Navigates r r.resetFilters
  | withFilter {r r' : Request} {f : Filter} (h : r.withFilter f = .ok r') : Navigates r r'
  | withoutFilter (r : Request) (field : String) : Navigates r (r.withoutFilter field)
  | toPage {r r' : Request} {page : Value} (h : r.toPage page = .ok r') : Navigates r r'
  | nextPage {r r' : Request} {totalPages : Value} (h : r.nextPage totalPages = .ok r') :
      Navigates r r'
  | previousPage {r r' : Request} (h : r.previousPage = .ok r') : Navigates r r'
  | toOffset {r r' : Request} {offset : Value} (h : r.toOffset offset = .ok r') : Navigates r r'
  | nextOffset {r r' : Request} {totalCount : Value} (h : r.nextOffset totalCount = .ok r') :
      Navigates r r'
  | previousOffset {r r' : Request} (h : r.previousOffset = .ok r') : Navigates r r'
  | toCursor (r : Request) (token : Value) (forward : Bool) : Navigates r (r.toCursor token forward)

/-- What a step does to the pagination of a request. -/
inductive Moves (r r' : Request) : Prop
  /-- The request is for the same part of the result. -/
  | stays (hpagination : r'.pagination = r.pagination) (hcursor : r'.cursor = r.cursor)
  /-- The request starts over with another ordering. -/
  | restarts (sort : SortOrder) (h : r' = r.restarted sort)
  /-- The request is for a page. -/
  | turns {page : Value} (hpage : page.AtLeast 1)
      (h : r' = r.paginated (Validation.alone .page page r.size))
  /-- The request is for the rows from an offset on. -/
  | skips {offset : Value} (hoffset : offset.AtLeast 0)
      (h : r' = r.paginated (Validation.alone .offset r.size offset))
  /-- The request is for the rows after a token, or in front of it. -/
  | points {s : Strategy} {token : Value} (hs : s.byCursor = true)
      (h : r' = r.paginated (Validation.alone s r.size token))

end Request

namespace Value

/-- What stands behind an integer is at least as great. -/
theorem atLeast_of_precedes {k : Int} {v : Value} (h : precedes false (.int k) v = .ok true) :
    v.AtLeast k := by
  cases hv : v.number? with
  | none => cases v <;> simp [precedes, number?] at h hv
  | some d =>
    rw [precedes_of_number (a := .int k) rfl hv] at h
    rw [AtLeast, precedes_of_number (a := .int k) rfl hv]
    unfold numbersOrdered at h ⊢
    split at h
    · split at h <;> cases h
    · next hnan =>
      rw [if_neg hnan]
      split at h <;> first | rfl | cases h

/-- The greater one of an integer and a value is at least as great as the integer. -/
theorem atLeast_ok {k : Int} {v w : Value} (h : atLeast (.int k) v = .ok w) : w.AtLeast k := by
  obtain ⟨greater, hgreater, h⟩ := Outcome.bind_eq_ok_iff.1 h
  cases h
  cases greater with
  | true => exact atLeast_of_precedes hgreater
  | false => exact atLeast_self k

end Value

namespace Request

open Validation

variable {r r' start : Request}

theorem moves_toPage {page : Value} (h : r.toPage page = .ok r') : Moves r r' := by
  obtain ⟨least, hleast, h⟩ := Outcome.bind_eq_ok_iff.1 h
  cases h
  exact .turns (Value.atLeast_ok hleast) rfl

theorem moves_toOffset {offset : Value} (h : r.toOffset offset = .ok r') : Moves r r' := by
  obtain ⟨least, hleast, h⟩ := Outcome.bind_eq_ok_iff.1 h
  cases h
  exact .skips (Value.atLeast_ok hleast) rfl

theorem moves_nextPage {totalPages : Value} (h : r.nextPage totalPages = .ok r') : Moves r r' := by
  obtain ⟨target, _, h⟩ := Outcome.bind_eq_ok_iff.1 h
  split at h
  · exact moves_toPage h
  · obtain ⟨_, _, h⟩ := Outcome.bind_eq_ok_iff.1 h
    obtain ⟨_, _, h⟩ := Outcome.bind_eq_ok_iff.1 h
    exact moves_toPage h

/-- There may be no further rows; then the request stays as it is. -/
theorem moves_nextOffset {totalCount : Value} (h : r.nextOffset totalCount = .ok r') :
    Moves r r' := by
  obtain ⟨_, _, h⟩ := Outcome.bind_eq_ok_iff.1 h
  obtain ⟨target, _, h⟩ := Outcome.bind_eq_ok_iff.1 h
  split at h
  · exact moves_toOffset h
  · obtain ⟨beyond, _, h⟩ := Outcome.bind_eq_ok_iff.1 h
    split at h
    · cases h
      exact .stays rfl rfl
    · exact moves_toOffset h

/-- **What a step of navigation can do to the pagination.** -/
theorem Navigates.moves (h : Navigates r r') : Moves r r' := by
  cases h with
  | pushOrder h =>
    obtain ⟨directions, _, h⟩ := Outcome.bind_eq_ok_iff.1 h
    cases h
    exact .restarts _ rfl
  | resetOrder => exact .stays rfl rfl
  | resetFilters => exact .stays rfl rfl
  | withFilter h =>
    obtain ⟨fs, _, h⟩ := Outcome.bind_eq_ok_iff.1 h
    cases h
    exact .stays rfl rfl
  | withoutFilter => exact .stays rfl rfl
  | toPage h => exact moves_toPage h
  | nextPage h => exact moves_nextPage h
  | previousPage h =>
    obtain ⟨_, _, h⟩ := Outcome.bind_eq_ok_iff.1 h
    exact moves_toPage h
  | toOffset h => exact moves_toOffset h
  | nextOffset h => exact moves_nextOffset h
  | previousOffset h =>
    obtain ⟨_, _, h⟩ := Outcome.bind_eq_ok_iff.1 h
    obtain ⟨_, _, h⟩ := Outcome.bind_eq_ok_iff.1 h
    exact moves_toOffset h
  | toCursor token forward =>
    cases forward with
    | true => exact .points (s := .first) rfl rfl
    | false => exact .points (s := .last) rfl rfl

/-! ### What every step keeps -/

/-- What a request has in common with the one that navigation started from. -/
structure Carries (start r : Request) : Prop where
  /-- There are parameters of one strategy only. -/
  form : ∃ s a b, r.pagination = alone s a b
  size : r.size = start.size
  /-- A cursor is carried along with the whole pagination. -/
  cursor : r.cursor = none ∨ r.pagination = start.pagination ∧ r.cursor = start.cursor

/-- What stands in place of a number is the least one. -/
theorem inPlace_inBounds (given : Value) (k : Int) :
    inPlace given (.int k) = .null ∨ (inPlace given (.int k)).AtLeast k := by
  unfold inPlace
  split
  · exact .inl rfl
  · exact .inr (Value.atLeast_self k)

/-- Starting over leaves the strategy and the number of rows as they are. -/
theorem restarted_alone {s : Strategy} {a b : Value} (hform : r.pagination = alone s a b)
    (sort : SortOrder) :
    ∃ a' b', (r.restarted sort).pagination = alone s a' b' ∧
      (alone s a' b').size = (alone s a b).size := by
  simp only [restarted, hform, size_alone]
  cases s with
  | first => exact ⟨a, .null, rfl, rfl⟩
  | last => exact ⟨a, .null, rfl, rfl⟩
  | page => exact ⟨inPlace a (.int 1), b, rfl, rfl⟩
  | offset => exact ⟨a, inPlace b (.int 0), rfl, rfl⟩

theorem carries_paginated {s : Strategy} {a b : Value} (hsize : (alone s a b).size = r.size)
    (h : Carries start r) : Carries start (r.paginated (alone s a b)) where
  form := ⟨s, a, b, rfl⟩
  size := hsize.trans h.size
  cursor := .inl rfl

theorem Moves.carries (h : Moves r r') (hr : Carries start r) : Carries start r' := by
  cases h with
  | stays hpagination hcursor =>
    refine ⟨hpagination ▸ hr.form, ?_, hpagination ▸ hcursor ▸ hr.cursor⟩
    rw [Request.size, hpagination]
    exact hr.size
  | restarts sort h =>
    obtain ⟨s, a, b, hform⟩ := hr.form
    obtain ⟨a', b', hform', hsize⟩ := restarted_alone hform sort
    subst h
    refine ⟨⟨s, a', b', hform'⟩, ?_, .inl rfl⟩
    rw [Request.size, hform', hsize, ← hform]
    exact hr.size
  | turns _ h =>
    subst h
    exact carries_paginated (size_alone _ _ _) hr
  | skips _ h =>
    subst h
    exact carries_paginated (size_alone _ _ _) hr
  | @points s token hs h =>
    subst h
    refine carries_paginated ?_ hr
    rw [size_alone, if_neg]
    rintro rfl
    cases hs

theorem Moves.inBounds (h : Moves r r') (hr : r.pagination.InBounds) : r'.pagination.InBounds := by
  cases h with
  | stays hpagination _ => exact hpagination ▸ hr
  | restarts sort h =>
    subst h
    exact ⟨inPlace_inBounds _ 1, inPlace_inBounds _ 0⟩
  | turns hpage h =>
    subst h
    exact ⟨.inr hpage, .inl rfl⟩
  | skips hoffset h =>
    subst h
    exact ⟨.inl rfl, .inr hoffset⟩
  | @points s token hs h =>
    subst h
    cases s <;> first | exact ⟨.inl rfl, .inl rfl⟩ | cases hs

/-- What one step keeps, navigation keeps. -/
theorem carries_of_navigates (hstart : Carries start start)
    (h : Relation.ReflTransGen Navigates start r) : Carries start r := by
  induction h with
  | refl => exact hstart
  | tail _ hstep ih => exact hstep.moves.carries ih

theorem inBounds_of_navigates (hstart : start.pagination.InBounds)
    (h : Relation.ReflTransGen Navigates start r) : r.pagination.InBounds := by
  induction h with
  | refl => exact hstart
  | tail _ hstep ih => exact hstep.moves.inBounds ih

end Request

/-! ### Valid requests -/

/-- Members of enumerations are taken by their values as numbers. No such value for the page is above
zero and below one, and neither for the page nor for the offset is it the double that is no number. -/
def Params.MembersPlaced (params : Params) : Prop :=
  ∀ es, params.toEntries = .ok es → ∀ v,
    (Value.lookup? "page" es = some (.member v) → ¬v.EludesBounds) ∧
    (Value.lookup? "offset" es = some (.member v) → v ≠ .float .nan)

namespace Validation

open Checking

variable {schema : Option Schema} {o : Options} {name : String} {given kept : Value}
  {orderBy : Option (List String)} {p q : Pagination} {c : Option Cursor}

/-- A cursor beside a token that is kept is that of the token. -/
theorem clean_token_typed {d : Cursor} (h : Clean (token schema o name orderBy given) (kept, some d)) :
    kept ≠ .null ∧ typedCursor schema kept = .ok d.raw := by
  have hdrop : ∀ reason : String, ¬Clean (do
      report (.paramDropped name reason)
      return (Value.null, (none : Option Cursor))) (kept, some d) := by
    intro reason h
    cases clean_report_bind_iff.1 h
  unfold token at h
  split at h
  · cases clean_pure_iff.1 h
  · next hgiven =>
    dsimp only at h
    split at h
    · split at h
      · exact absurd h not_clean_fail
      · split at h
        · exact absurd h (hdrop _)
        · exact absurd h not_clean_fail
    · next hcursor =>
      split at h
      · next hmatches =>
        obtain ⟨d, rfl, _⟩ := RawCursor.isPerm_iff.1 hmatches
        cases clean_pure_iff.1 h
        refine ⟨?_, by rw [RawCursor.whole_raw]; exact hcursor⟩
        rintro rfl
        exact hgiven rfl
      · split at h
        · exact absurd h (hdrop _)
        · exact absurd h not_clean_complain_bind

/-- Parameters of one strategy, with the cursor of their token if there is a cursor. -/
structure Settled (schema : Option Schema) (p : Pagination) (c : Option Cursor) : Prop where
  form : ∃ s a b, p = alone s a b
  cursor : ∀ d, c = some d → ∃ s a token, s.byCursor = true ∧ p = alone s a token ∧ token ≠ .null ∧
    typedCursor schema token = .ok d.raw

theorem parameters_settled {s : Strategy} (honly : Only p s)
    (h : Clean (parameters schema o orderBy p (some s)) (q, c)) : Settled schema q c := by
  obtain ⟨a, b, rfl⟩ : ∃ a b, p = alone s a b := ⟨_, _, honly.eq_alone⟩
  cases s with
  | first | last =>
    obtain ⟨n, t, rfl, _, _, htoken⟩ := clean_cursored rfl h
    refine ⟨⟨_, _, _, rfl⟩, ?_⟩
    rintro d rfl
    obtain ⟨hnull, hd⟩ := clean_token_typed htoken
    exact ⟨_, _, _, rfl, rfl, hnull, hd⟩
  | page =>
    obtain ⟨page, n, rfl, rfl, _⟩ := clean_paged h
    exact ⟨⟨_, _, _, rfl⟩, nofun⟩
  | offset =>
    obtain ⟨limit, offset, rfl, rfl, _⟩ := clean_skipping h
    exact ⟨⟨_, _, _, rfl⟩, nofun⟩

theorem parameters_inBounds {s : Strategy} (honly : Only p s) (hpage : ¬p.page.EludesBounds)
    (hoffset : p.offset ≠ .float .nan)
    (h : Clean (parameters schema o orderBy p (some s)) (q, c)) : q.InBounds := by
  obtain ⟨a, b, rfl⟩ : ∃ a b, p = alone s a b := ⟨_, _, honly.eq_alone⟩
  cases s with
  | first | last =>
    obtain ⟨n, t, rfl, _⟩ := clean_cursored rfl h
    exact ⟨.inl rfl, .inl rfl⟩
  | page =>
    obtain ⟨page, n, rfl, rfl, _, rfl | ⟨rfl, hlow⟩⟩ := clean_paged h
    · exact ⟨.inr (Value.atLeast_self 1), .inl rfl⟩
    · exact ⟨.inr (Value.atLeast_one hpage hlow), .inl rfl⟩
  | offset =>
    obtain ⟨limit, offset, rfl, rfl, _, rfl | ⟨rfl, hlow⟩⟩ := clean_skipping h
    · exact ⟨.inl rfl, .inr (Value.atLeast_self 0)⟩
    · exact ⟨.inl rfl, .inr (Value.atLeast_zero hoffset hlow)⟩

/-- The strategy in use, or the one that stands in, leaves its parameters settled. -/
theorem pagination_settled {used : Option Strategy} (hused : conflict p = .ok used)
    (h : Clean (pagination schema o orderBy p used) (q, c)) :
    Settled schema q c ∧ (¬p.page.EludesBounds → p.offset ≠ .float .nan → q.InBounds) := by
  cases pagination_routes hused h with
  | given _ honly _ h =>
    exact ⟨parameters_settled honly h, fun hpage hoffset =>
      parameters_inBounds honly hpage hoffset h⟩
  | @standIn s _ _ _ _ h =>
    have honly : Only (sized .empty o.defaultLimit s) s := only_sized s
    have hpage : (sized .empty o.defaultLimit s).page = .null := by cases s <;> rfl
    have hoffset : (sized .empty o.defaultLimit s).offset = .null := by cases s <;> rfl
    refine ⟨parameters_settled honly h, fun _ _ => parameters_inBounds honly ?_ ?_ h⟩
    · rw [hpage]
      exact Value.not_eludesBounds_null
    · rw [hoffset]
      nofun
  | limit _ _ hq hc =>
    subst hq hc
    exact ⟨⟨⟨.offset, o.defaultLimit, .null, rfl⟩, nofun⟩, fun _ _ => ⟨.inl rfl, .inl rfl⟩⟩

/-- A page and an offset that are read elude no check, unless they are members of enumerations. -/
theorem placed_read {es : List (Value × Value)} (h : (Params.entries es).MembersPlaced) :
    ¬(Scalars.read (admitted o es)).1.pagination.page.EludesBounds ∧
      (Scalars.read (admitted o es)).1.pagination.offset ≠ .float .nan := by
  constructor
  · exact number_admitted (P := (¬Value.EludesBounds ·)) (by decide) Value.not_eludesBounds_null
      Value.not_eludesBounds_int fun v => (h es rfl v).1
  · exact number_admitted (P := (· ≠ .float .nan)) (by decide) nofun nofun fun v => (h es rfl v).2

/-! ### Checking requests again -/

theorem number_of_null {es : List (Value × Value)} (h : Value.lookup? name es = some .null)
    (read : String → Value → Intake.Outcome Value) : (Scalars.parameter es name read).number = .null := by
  unfold Scalars.parameter
  rw [h]
  rfl

theorem text_of_null {es : List (Value × Value)} (h : Value.lookup? name es = some .null)
    (read : String → Value → Intake.Outcome String) : (Scalars.parameter es name read).text = .null := by
  unfold Scalars.parameter
  rw [h]
  rfl

/-- The parameters of a request are found under their names, whether orderings are admitted or not. -/
theorem lookup?_request {r : Request} {es : List (Value × Value)}
    (hes : (Params.request r).toEntries = .ok es) {key : String} {v : Value}
    (h : (key, v) ∈ Params.ofPagination r.pagination) :
    Value.lookup? key (admitted o es) = some v := by
  cases hes
  simp only [Params.ofPagination, List.mem_cons, Prod.mk.injEq, List.not_mem_nil, or_false] at h
  rcases h with ⟨rfl, rfl⟩ | ⟨rfl, rfl⟩ | ⟨rfl, rfl⟩ | ⟨rfl, rfl⟩ | ⟨rfl, rfl⟩ | ⟨rfl, rfl⟩ |
    ⟨rfl, rfl⟩ | ⟨rfl, rfl⟩ <;> exact lookup?_admitted (by decide) (by decide)

/-- No parameter is read that the request does not have. -/
theorem uses_of_read {r : Request} {es : List (Value × Value)}
    (hes : (Params.request r).toEntries = .ok es) {s : Strategy}
    (h : (Scalars.read (admitted o es)).1.pagination.uses s = true) : r.pagination.uses s = true := by
  by_contra hunused
  obtain ⟨hfirst, hsecond⟩ := Prod.ext_iff.1 (parameters_of_not_uses hunused)
  have hnumber : ∀ key v, (key, v) ∈ Params.ofPagination r.pagination → v = .null →
      (Scalars.parameter (admitted o es) key Intake.integer).number = .null := fun key v hkey hv =>
    number_of_null (lookup?_request hes (hv ▸ hkey)) _
  have htext : ∀ key v, (key, v) ∈ Params.ofPagination r.pagination → v = .null →
      (Scalars.parameter (admitted o es) key Intake.text).text = .null := fun key v hkey hv =>
    text_of_null (lookup?_request hes (hv ▸ hkey)) _
  cases s with
  | first =>
    have hrows := hnumber "first" r.pagination.first (by simp [Params.ofPagination]) hfirst
    have htoken := htext "after" r.pagination.after (by simp [Params.ofPagination]) hsecond
    simp [Pagination.uses, Pagination.parameters, Scalars.read, hrows, htoken, Value.isNull] at h
  | last =>
    have hrows := hnumber "last" r.pagination.last (by simp [Params.ofPagination]) hfirst
    have htoken := htext "before" r.pagination.before (by simp [Params.ofPagination]) hsecond
    simp [Pagination.uses, Pagination.parameters, Scalars.read, hrows, htoken, Value.isNull] at h
  | page =>
    have hpage := hnumber "page" r.pagination.page (by simp [Params.ofPagination]) hfirst
    have hrows := hnumber "page_size" r.pagination.pageSize (by simp [Params.ofPagination]) hsecond
    simp [Pagination.uses, Pagination.parameters, Scalars.read, hpage, hrows, Value.isNull] at h
  | offset =>
    have hrows := hnumber "limit" r.pagination.limit (by simp [Params.ofPagination]) hfirst
    have hoffset := hnumber "offset" r.pagination.offset (by simp [Params.ofPagination]) hsecond
    simp [Pagination.uses, Pagination.parameters, Scalars.read, hrows, hoffset, Value.isNull] at h

/-- One strategy is no conflict. -/
theorem conflict_ne_error (h : ∀ s t, p.uses s = true → p.uses t = true → s = t) (e : Error) :
    conflict p ≠ .error e := by
  intro he
  have hnodup : p.used.Nodup := List.Nodup.filter _ (by decide)
  have huses : ∀ s ∈ p.used, p.uses s = true := fun s hs => (List.mem_filter.1 hs).2
  unfold conflict at he
  split at he
  · cases he
  · cases he
  · next s rest hrest hused =>
    obtain ⟨t, rest, rfl⟩ := List.exists_cons_of_ne_nil hrest
    rw [hused] at hnodup huses
    have hsame := h s t (huses s (by simp)) (huses t (by simp))
    simp [hsame] at hnodup

/-- Parameters of one strategy are never refused as parameters of two. -/
theorem request_ne_conflict {es : List (Value × Value)}
    (h : ∀ e, conflict (Scalars.read (admitted o es)).1.pagination ≠ .error e) :
    FailsOnly (fun e => ∀ parameter strategies, e ≠ .strategyConflict parameter strategies)
      (request schema o es) := by
  refine (request_fails es).imp ?_
  rintro e hends parameter strategies rfl
  cases hends with
  | conflict hconflict => exact h _ hconflict
  | ordering hordering =>
    rcases orderingOf_fails _ _ hordering with hv | hv | ⟨v, hv⟩ <;> cases hv
  | filters hfilters => rcases hfilters.eq_or with hv | hv <;> cases hv
  | pagination hpagination =>
    rcases hpagination with ((hv | hv) | ⟨hv, _⟩) | ⟨name, hv⟩ <;> cases hv

end Validation

/-! ### Navigation -/

namespace Request

open Validation

variable {schema : Option Schema} {start r : Request}

/-- What is true of every request that navigation leads to. -/
structure Continues (schema : Option Schema) (start r : Request) : Prop where
  /-- The parameters that are given are those of one strategy. -/
  oneStrategy : ∀ s t, r.pagination.uses s = true → r.pagination.uses t = true → s = t
  /-- As many rows are asked for. -/
  size : r.size = start.size
  /-- A cursor is that of the start. Its token is in its place, and decodes to it. -/
  cursor : ∀ c, r.cursor = some c → start.cursor = some c ∧
    r.pagination.after = start.pagination.after ∧ r.pagination.before = start.pagination.before ∧
    typedCursor schema r.token = .ok c.raw
  /-- Parameters of two strategies are never found when the request is checked again. -/
  unrefused : ∀ (again : Option Schema) (o : Options) (parameter : String) (strategies : List String),
    ((Params.request r).validateWith again o).outcome ≠ .error (.strategyConflict parameter strategies)
  /-- Rows are compared with the cursor of the token that the request has. -/
  pivot : ∀ c, r.pivot = .ok (some c) →
    typedCursor schema r.token = .ok c.raw ∨ RawCursor.whole <$> Cursor.decodeValue r.token = .ok c

theorem oneStrategy_of_form (h : ∃ s a b, r.pagination = alone s a b) (s t : Strategy)
    (hs : r.pagination.uses s = true) (ht : r.pagination.uses t = true) : s = t := by
  obtain ⟨u, a, b, hform⟩ := h
  rw [hform] at hs ht
  by_cases hgiven : a ≠ .null ∨ b ≠ .null
  · rw [(uses_alone hgiven s).1 hs, (uses_alone hgiven t).1 ht]
  · rw [not_or, not_not, not_not] at hgiven
    rw [hgiven.1, hgiven.2] at hs
    cases u <;> cases s <;> cases hs

/-- The token of a cursor strategy is the one to start from. -/
theorem token_alone {s : Strategy} {a token : Value} (hs : s.byCursor = true) (htoken : token ≠ .null)
    (h : r.pagination = alone s a token) : r.token = token := by
  have hstrategy : r.strategy? = some s := by
    rw [Request.strategy?, h]
    exact strategy?_alone (.inr htoken)
  rw [Request.token, Request.isBackward, hstrategy, h]
  cases s <;> first | rfl | cases hs

/-- Navigation from settled parameters keeps them so. -/
theorem Carries.continues (hstart : Settled schema start.pagination start.cursor)
    (h : Carries start r) : Continues schema start r := by
  have hone := oneStrategy_of_form h.form
  have hcursor : ∀ c, r.cursor = some c → start.cursor = some c ∧ r.pagination = start.pagination ∧
      typedCursor schema r.token = .ok c.raw := by
    intro c hc
    rcases h.cursor with hnone | ⟨hpagination, hsame⟩
    · cases hnone.symm.trans hc
    · have hstartc : start.cursor = some c := hsame.symm.trans hc
      obtain ⟨s, a, token, hs, hform, hnull, htyped⟩ := hstart.cursor c hstartc
      refine ⟨hstartc, hpagination, ?_⟩
      rw [token_alone hs hnull (hpagination.trans hform)]
      exact htyped
  refine ⟨hone, h.size, ?_, ?_, ?_⟩
  · intro c hc
    obtain ⟨hstartc, hpagination, htyped⟩ := hcursor c hc
    rw [hpagination]
    exact ⟨hstartc, rfl, rfl, htyped⟩
  · intro again o parameter strategies hrefused
    obtain ⟨es, hes⟩ : ∃ es, (Params.request r).toEntries = .ok es := ⟨_, rfl⟩
    have hfree : ∀ e, conflict (Scalars.read (admitted o es)).1.pagination ≠ .error e :=
      conflict_ne_error fun s t hs ht => hone s t (uses_of_read hes hs) (uses_of_read hes ht)
    cases hes
    rcases Params.validateWith_error_iff.1 hrefused with hrequest | ⟨_, _, _, _, hmessages⟩
    · exact request_ne_conflict hfree _ _ hrequest _ _ rfl
    · cases hmessages
  · intro c hpivot
    unfold Request.pivot at hpivot
    split at hpivot
    · cases hpivot
    · split at hpivot
      · next e d hd =>
        cases hpivot
        exact .inl (hcursor _ hd).2.2
      · obtain ⟨d, hd, hsome⟩ := Outcome.map_eq_ok_iff.1 hpivot
        cases hsome
        exact .inr (by rw [hd]; rfl)

end Request

namespace Params

open Validation

variable {schema : Option Schema} {o : Options} {start r : Request} {params : Params}

/-- **Navigation from a valid request.** -/
theorem validateWith_navigates (h : (params.validateWith schema o).outcome = .ok start)
    (hnavigates : Relation.ReflTransGen Request.Navigates start r) :
    Request.Continues schema start r ∧ (params.MembersPlaced → r.pagination.InBounds) := by
  obtain ⟨es, hes, h⟩ := validateWith_eq_ok_iff.1 h
  obtain ⟨given, used, hscalars, hused, _, _, hpagination⟩ := clean_request_iff.1 h
  obtain ⟨hsettled, hbounds⟩ := pagination_settled hused hpagination
  constructor
  · refine Request.Carries.continues hsettled (Request.carries_of_navigates ?_ hnavigates)
    exact ⟨hsettled.form, rfl, .inr ⟨rfl, rfl⟩⟩
  · intro hplaced
    have hplaced' : (Params.entries es).MembersPlaced := by
      rintro es' ⟨⟩
      exact hplaced es hes
    obtain ⟨hpage, hoffset⟩ := placed_read (o := o) hplaced'
    rw [← scalars_read hscalars] at hpage hoffset
    exact Request.inBounds_of_navigates (hbounds hpage hoffset) hnavigates

/-- An ordering by numbers. -/
def byNumber : List (Value × Value) := [(.text "order_by", .list [.text "id"])]

/-- There is a token of a field with the number one. -/
theorem exists_tokenOfOne (name : String) :
    ∃ token, Cursor.decode token = .ok (Cursor.raw [(name, .int 1)]) := by
  have hportable : Cursor.IsPortable [(name, .int 1)] :=
    ⟨by simp, by simpa using Value.Portable.int 1⟩
  have hints : ∀ e ∈ ([(name, .int 1)] : Cursor), e.2.shortInts = true := by
    simpa using show (Value.int 1).shortInts = true by decide
  obtain ⟨token, _, hdecode⟩ := Cursor.encode_ok hportable hints
  exact ⟨token, by rw [hdecode]; rfl⟩

/-- Two rows are asked for, after the row with the number one. They are asked for again without
filters, then as the first page of their size, and then the page after it is asked for. -/
theorem validateWith_navigates_onward :
    ∃ token start r, ((page byNumber 2 (.text token)).validateWith none admitting).outcome = .ok start ∧
      (page byNumber 2 (.text token)).MembersPlaced ∧
      start.resetFilters.cursor = some [("id", .int 1)] ∧
      Relation.ReflTransGen Request.Navigates start r ∧
      r.pagination = { Pagination.empty with page := .int 2, pageSize := .int 2 } ∧
      Request.Continues none start r ∧ r.pagination.InBounds := by
  obtain ⟨token, hdecode⟩ := exists_tokenOfOne "id"
  have hfirst : ((page byNumber 2 .null).validateWith none admitting).outcome = .ok
      ⟨[], some ["id"], none, { Pagination.empty with first := .int 2 }, none⟩ := rfl
  have htyped : typedCursor none (.text token) = .ok (Cursor.raw [("id", .int 1)]) := by
    rw [typedCursor, Cursor.decodeValue, hdecode]
    rfl
  obtain ⟨start, hvalid, hstart⟩ : ∃ start,
      ((page byNumber 2 (.text token)).validateWith none admitting).outcome = .ok start ∧
      start = (⟨[], some ["id"], none, { Pagination.empty with first := .int 2, after := .text token },
        some [("id", .int 1)]⟩ : Request) :=
    ⟨_, (page_valid_iff rfl hfirst (m := 2) (.inr ⟨token, rfl⟩)).2
      ⟨⟨by decide, .inl rfl⟩, some [("id", .int 1)], ⟨rfl, htyped, by decide⟩, rfl⟩, rfl⟩
  have hplaced : (page byNumber 2 (.text token)).MembersPlaced := by
    rintro es ⟨⟩ v
    constructor <;> intro h <;> simp [byNumber, Value.lookup?] at h
  have hnavigates : Relation.ReflTransGen Request.Navigates start
      (start.paginated { Pagination.empty with page := .int 2, pageSize := .int 2 }) := by
    subst hstart
    exact ((Relation.ReflTransGen.single (.resetFilters _)).tail
      (.toPage (Request.toPage_int _ 1))).tail (@Request.Navigates.nextPage _ _ .null rfl)
  obtain ⟨hcontinues, hbounds⟩ := validateWith_navigates hvalid hnavigates
  exact ⟨token, _, _, hvalid, hplaced, by rw [hstart]; rfl, hnavigates, rfl, hcontinues,
    hbounds hplaced⟩

/-- **A page number stays below one where a member of an enumeration has a fraction as its value.** -/
theorem halfPage_navigates :
    ∃ start, ((entries halfPage).validateWith none admitting).outcome = .ok start ∧
      Request.Navigates start start.resetFilters ∧
      start.resetFilters.pagination.page ≠ .null ∧
      ¬start.resetFilters.pagination.page.AtLeast 1 := by
  have hlow : ¬(Value.float half).AtLeast 1 := by
    rw [Value.AtLeast, Value.precedes_of_number rfl rfl]
    rintro ⟨⟩
  exact ⟨_, rfl, .resetFilters _, by rintro ⟨⟩, hlow⟩

end Params

end Sieve
