import Sieve.Proofs.Keyset.Window
import Sieve.Proofs.Validation.Strict

/-!
# Pages of validated parameters

Parameters for the rows after a token are checked, the token is decoded and its values are converted
to the storage types of their fields. Where the token is that of a row with values of ordered kinds,
the answer is the page after this row, whether the row is in the collection or not.

* `Request.ByKinds`: the ordering is by distinct fields of ordered kinds;
* `Query.visit`: the page of some parameters;
* `Query.visit_shows`: what the page shows;
* `Query.visit_ok`: there is a page for every admitted size if tokens can carry the rows.
-/

namespace Sieve

open Validation

variable {s : Schema} {o : Options} {aliases : Aliases} {kinds : String → Kind} {r : Request}
  {p : Predicate} {data : List Value} {base : List (Value × Value)}

/-- The ordering is by distinct fields, whose storage types are those of given kinds. -/
structure Request.ByKinds (r : Request) (s : Schema) (kinds : String → Kind) : Prop where
  nodup : r.orderNames.Nodup
  stored : ∀ n ∈ r.orderNames, ∃ f, s.resolve n = .ok f ∧ f.IsDirect ∧ f.type = (kinds n).storage

/-! ### Tokens of rows -/

/-- Values of the kind of a field are their own conversions. -/
theorem Validation.typedValue_kind {f : Field} {n : String} {v : Value} (hf : s.resolve n = .ok f)
    (hdirect : f.IsDirect) (ht : f.type = (kinds n).storage) (hv : (kinds n).Has v) :
    typedValue (some s) n v = .ok v := by
  have hget : (some s).bind (·.get? n) = some f := Schema.resolve_eq_ok_iff.1 hf
  unfold typedValue
  rw [hget]
  cases f with
  | plain name t =>
    have htype : t = (kinds n).storage := ht
    rw [htype]
    exact hv.coerce
  | join name binding column path t ops =>
    have htype : t = (kinds n).storage := ht
    rw [htype]
    exact hv.coerce
  | isAlias | composite | custom => exact hdirect.elim

/-- The token of a row is checked to be the cursor of the row. -/
theorem Request.ByKinds.typedCursor_token (h : r.ByKinds s kinds) {row : Value}
    (hrow : HasKinds (some s) kinds r.orderNames row) {token : String}
    (htoken : Cursor.tokenOf (some s) none r.orderNames row = .ok token) :
    ∃ c, Cursor.ofRow (some s) row r.orderNames = .ok c ∧ c.map Prod.fst = r.orderNames ∧
      typedCursor (some s) (.text token) = .ok c.raw := by
  obtain ⟨c, token', hc, hfields, hvalues, henc, hdec⟩ :=
    hrow.token_ok h.nodup (hrow.canCarry h.nodup htoken)
  have hsame : token' = token := by
    simp only [Cursor.tokenOf, Option.getD_none, hc, Outcome.ok_bind, henc] at htoken
    exact Except.ok.inj htoken
  subst hsame
  have hentry : ∀ e ∈ c.raw, typedEntry (some s) e = .ok e := by
    intro e he
    obtain ⟨⟨n, v⟩, hmem, rfl⟩ := List.mem_map.1 he
    have hn : n ∈ r.orderNames := by
      rw [← hfields]
      exact List.mem_map_of_mem hmem
    obtain ⟨f, hf, hdirect, ht⟩ := h.stored n hn
    have htyped : typedValue (some s) n v = .ok v :=
      typedValue_kind hf hdirect ht (hvalues _ hmem).2
    simp only [typedEntry, RawText.whole?, htyped]
    rfl
  refine ⟨c, hc, hfields, ?_⟩
  simp only [typedCursor, Cursor.decodeValue, hdec, Outcome.ok_bind]
  rw [Outcome.mapM_ok hentry, List.map_id']

/-! ### Starting at a row -/

section Asking

variable (hs : Schema.HasPaths (some s)) (hkinds : r.ByKinds s kinds) {n : ℕ}
  (hforward : Params.IsForward r n)
  (h : r.Ranked (some s) o aliases (fun n => (kinds n).Has) p data)
  {start : Option Row} (hstart : ∀ row ∈ start, HasKinds (some s) kinds r.orderNames row.data)
  {after : Value} (hmarks : Cursor.Marks (some s) r.orderNames start after)
  {c : Option Cursor} (hfits : Fits (some s) r.orderNames after c) (m : ℕ)

/-- The ranking by values of ordered kinds. -/
noncomputable abbrev Ranking.byKinds (s : Schema) (kinds : String → Kind) : Ranking :=
  .typed (some s) fun n => (kinds n).Has

include hkinds hforward hstart hmarks hfits in
theorem Request.ByKinds.startsAt :
    (r.onward m after c).StartsAt (.byKinds s kinds) (start.map (·.data)) := by
  have htoken := hforward.token m after c
  cases start with
  | none =>
    have hnull : after = .null := hmarks
    exact Request.pivot_withoutToken (htoken.trans hnull)
  | some row =>
    obtain ⟨token, hrow, rfl⟩ := hmarks
    obtain ⟨d, hd, hfields, htyped⟩ := hkinds.typedCursor_token (hstart row rfl) hrow
    cases c with
    | none => cases hfits
    | some c =>
      obtain ⟨_, hc, _⟩ := hfits
      obtain rfl : c = d := Cursor.raw_inj.1 (Except.ok.inj (hc.symm.trans htyped))
      -- The cursor has a field, so it counts as decoded.
      obtain ⟨e, d, rfl⟩ : ∃ e d, c = e :: d := by
        refine List.exists_cons_of_ne_nil fun hnil => hforward.ordered ?_
        rw [← hfields, hnil]
        rfl
      refine ⟨e :: d, ?_, fun t ht => ?_⟩
      · rw [Request.pivot, htoken]
        rfl
      · rw [hforward.direct] at ht
        have hn : t.field ∈ r.orderNames := by
          rw [← Request.sort_names]
          exact Ranking.mem_names ht
        exact Ranking.bound?_ofRow hd hn ((hasKinds_iff.1 (hstart row rfl)).2 _ hn)

/-- Rows of the collection can be compared with a row of any collection. -/
theorem Request.Ranked.pivots {row : Value} (h : r.Ranked (some s) o aliases
      (fun n => (kinds n).Has) p data) (hrow : HasKinds (some s) kinds r.orderNames row) :
    (Ranking.byKinds s kinds).Pivots r.sort (Row.collection data) row := by
  obtain ⟨htyped, hfull⟩ := hasKinds_iff.1 hrow
  rw [← Request.sort_names] at htyped
  have htotal : ∀ n ∈ r.sort.names, Value.TotallyOrdered (kinds n).Has := fun n _ =>
    (kinds n).totallyOrdered
  have hdata : ∀ other ∈ Row.collection data,
      Ranking.Holds (some s) (fun n => (kinds n).Has) r.sort.names other.data := by
    intro other hother
    rw [Request.sort_names]
    exact h.typed _ (Row.data_mem hother)
  refine ⟨Ranking.full_typed htyped (by simpa using hfull), fun other hother => ?_,
    fun other hother => ?_⟩
  · exact Ranking.compares_typed htotal (hdata other hother) htyped
  · exact Ranking.compares_typed htotal htyped (hdata other hother)

/-- Matching rows have values of the kinds. -/
theorem Request.Ranked.hasKinds (h : r.Ranked (some s) o aliases (fun n => (kinds n).Has) p data)
    {row : Value} (hrow : row ∈ data) (hholds : p.holds aliases row = true) :
    HasKinds (some s) kinds r.orderNames row :=
  hasKinds_iff.2 ⟨h.typed row hrow, h.full row hrow hholds⟩

include hs hkinds hforward h hstart hmarks hfits in
/-- The request asks for the rows after the one that the token is of. -/
theorem Request.Ranked.asks_onward : (r.onward m after c).Asks (some s) aliases o
    (.byKinds s kinds) p (Row.collection data) (start.map (·.data)) m := by
  have hr : (r.onward m after c).Ranked (some s) o aliases (fun n => (kinds n).Has) p data :=
    { h with }
  refine hr.asks hs (hkinds.startsAt hforward hstart hmarks hfits m) ?_ (hforward.size m after c)
  intro pivot hpivot
  obtain ⟨row, hrow, rfl⟩ := Option.mem_map.1 hpivot
  rw [hforward.direct]
  exact h.pivots (hstart row hrow)

end Asking

/-! ### Visits -/

/-- The page of some rows after a token, with valid parameters, of a collection. -/
def Query.visit (schema : Option Schema) (o : Options) (aliases : Aliases)
    (base : List (Value × Value)) (n : ℕ) (after : Value) (data : List Value) :
    Except Error Page :=
  (Query.validateAndRunStrictly (.inMemory aliases (Row.collection data) schema o)
    (.page base n after)).outcome

/-- What stays the same on a walk through pages: a declared schema, options that reject invalid
parameters, and the ordering and the filters of the request for the first page. -/
structure Query.Setting (s : Schema) (o : Options) (kinds : String → Kind)
    (base : List (Value × Value)) (r : Request) : Prop where
  declared : ∃ d, Schema.declare d = .ok s
  rejects : o.replaces = false
  cursors : o.cursorFunction = none
  valid : ∃ n, ((Params.page base n .null).validateWith (some s) o).outcome = .ok r
  ordering : r.ByKinds s kinds

namespace Query.Setting

variable (h : Query.Setting s o kinds base r)
include h

theorem hasPaths : Schema.HasPaths (some s) := by
  obtain ⟨d, hd⟩ := h.declared
  exact Schema.hasPaths_of_declare hd

theorem isForward : ∃ n, Params.IsForward r n := by
  obtain ⟨n, hn⟩ := h.valid
  exact ⟨n, Params.isForward h.rejects hn⟩

variable {n : ℕ} {start : Option Row} {after : Value}
  (hmarks : Cursor.Marks (some s) r.orderNames start after)
include hmarks

/-- A visit is the answer to a request for another page. -/
theorem visit_eq_ok_iff {page : Page} :
    Query.visit (some s) o aliases base n after data = .ok page ↔
      o.AdmitsSize n ∧ ∃ c, Fits (some s) r.orderNames after c ∧
        (Query.run (.inMemory aliases (Row.collection data) (some s) o)
          (r.onward n after c)).outcome = .ok page := by
  have hafter : after = .null ∨ ∃ t, after = .text t := by
    cases start with
    | none => exact .inl hmarks
    | some row =>
      obtain ⟨token, _, rfl⟩ := hmarks
      exact .inr ⟨token, rfl⟩
  obtain ⟨n₀, hvalid⟩ := h.valid
  rw [Query.visit, Query.validateAndRunStrictly, Traced.bind_outcome, Outcome.bind_eq_ok_iff]
  constructor
  · rintro ⟨q, hq, hrun⟩
    obtain ⟨hsize, c, hfits, rfl⟩ := (Params.page_valid_iff h.rejects hvalid hafter).1 hq
    exact ⟨hsize, c, hfits, hrun⟩
  · rintro ⟨hsize, c, hfits, hrun⟩
    exact ⟨_, (Params.page_valid_iff h.rejects hvalid hafter).2 ⟨hsize, c, hfits, rfl⟩, hrun⟩

variable (hstart : ∀ row ∈ start, HasKinds (some s) kinds r.orderNames row.data)
  (hranked : r.Ranked (some s) o aliases (fun n => (kinds n).Has) p data)
include hstart hranked

/-- **What the page of a visit shows**: the next rows after the one that the token is of. -/
theorem visit_shows {page : Page}
    (hvisit : Query.visit (some s) o aliases base n after data = .ok page) :
    page.Shows (some s) r.orderNames
      (((Ranking.byKinds s kinds).candidates aliases r.sort p (Row.collection data)
        (start.map (·.data))).take n)
      (decide (n < ((Ranking.byKinds s kinds).candidates aliases r.sort p (Row.collection data)
        (start.map (·.data))).length))
      ((Ranking.byKinds s kinds).leavesOut aliases r.sort p (Row.collection data)
        (start.map (·.data))) := by
  obtain ⟨_, c, hfits, hrun⟩ := (h.visit_eq_ok_iff hmarks).1 hvisit
  obtain ⟨_, hforward⟩ := h.isForward
  have hasks := hranked.asks_onward h.hasPaths h.ordering hforward hstart hmarks hfits n
  have hshows := Query.shows_first hasks h.cursors (hforward.strategy? n after c) hrun
  rwa [hforward.direct] at hshows

/-- **Every visit has a page** if its size is admitted and tokens can carry the matching rows. -/
theorem visit_ok (hsize : o.AdmitsSize n)
    (hcarry : ∀ row ∈ data, p.holds aliases row = true → CanCarry (some s) r.orderNames row) :
    ∃ page, Query.visit (some s) o aliases base n after data = .ok page := by
  have hfits : ∃ c, Fits (some s) r.orderNames after c := by
    cases start with
    | none =>
      have hnull : after = .null := hmarks
      exact ⟨none, by rw [hnull]; rfl⟩
    | some row =>
      obtain ⟨token, hrow, rfl⟩ := hmarks
      obtain ⟨c, _, hfields, hread⟩ := h.ordering.typedCursor_token (hstart row rfl) hrow
      exact ⟨some c, rfl, hread, by rw [hfields, List.isPerm_iff]⟩
  obtain ⟨c, hfits⟩ := hfits
  obtain ⟨_, hforward⟩ := h.isForward
  have hasks := hranked.asks_onward h.hasPaths h.ordering hforward hstart hmarks hfits n
  have htokens : ∀ row ∈ matching aliases p (Row.collection data),
      ∃ token, Cursor.tokenOf (some s) none r.orderNames row.data = .ok token := by
    intro row hrow
    obtain ⟨hdata, hholds⟩ := Row.data_mem_of_matching hrow
    obtain ⟨_, token, _, htoken, _⟩ := ((hranked.hasKinds hdata hholds).survives h.ordering.nodup
      (hcarry _ hdata hholds)).token
    exact ⟨token, htoken⟩
  obtain ⟨page, hrun, _⟩ := Query.run_first hasks h.cursors (hforward.strategy? n after c)
    (hasks.ends_ok htokens (List.take_subset _ _))
  exact ⟨page, (h.visit_eq_ok_iff hmarks).2 ⟨hsize, c, hfits, hrun⟩⟩

end Query.Setting

end Sieve
