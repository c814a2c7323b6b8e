import Sieve.Proofs.Validation.Answers
import Sieve.Proofs.Validation.WellFormed

/-!
# Orderings that are checked

The names and the directions of an ordering travel as two lists. Directions may be missing at the end, or
altogether, and names that a schema does not admit are dropped where invalid parameters are replaced. Each
name that is kept then keeps the direction at its place.

* `OrderParams.sort`: the ordering that names and directions stand for;
* `Validation.keep_sortable`: what is kept is the part of it that the schema admits;
* `Validation.order_sort`: the ordering that a check answers;
* `Params.validateWith_sort`: the ordering of valid requests.
-/

namespace Sieve

/-- The terms of an ordering that a schema admits, in their order. -/
def SortOrder.admitted (schema : Option Schema) (sort : SortOrder) : SortOrder :=
  match schema with
  | none => sort
  | some s => sort.filter (s.isSortable ·.field)

/-- The ordering that names and directions stand for; without names there is none. -/
def OrderParams.sort (q : OrderParams) : SortOrder :=
  .of (q.1.getD []) (q.2.getD [])

namespace Validation

open Checking

variable {schema : Option Schema} {s : Schema} {o : Options} {names : List String}
  {m n : Messages}

/-! ### Names with the directions at their places -/

theorem of_cons (name : String) (names : List String) (ds : List Direction) :
    SortOrder.of (name :: names) ds = ⟨name, directionAt ds 0⟩ :: SortOrder.of names ds.tail := by
  cases ds <;> rfl

/-- From any place on, names are paired with the directions at their places. -/
theorem of_drop (names : List String) (ds : List Direction) (k : Nat) :
    SortOrder.of names (ds.drop k) =
      (names.zipIdx k).map fun e => ⟨e.1, directionAt ds e.2⟩ := by
  induction names generalizing k with
  | nil => rfl
  | cons name names ih =>
    have hhead : directionAt (ds.drop k) 0 = directionAt ds k := by
      simp [directionAt]
    rw [of_cons, hhead, List.tail_drop, ih, List.zipIdx_cons, List.map_cons]

/-- **Names that are kept keep their directions.** -/
theorem keep_sortable (s : Schema) (names : List String) (ds : List Direction) :
    keep (names.filter (!s.isSortable ·)) names ds = (SortOrder.of names ds).admitted (some s) := by
  have hall : SortOrder.of names ds = names.zipIdx.map fun e => ⟨e.1, directionAt ds e.2⟩ :=
    of_drop names ds 0
  rw [hall, SortOrder.admitted, List.filter_map, keep]
  refine congrArg _ (List.filter_congr fun e he => ?_)
  have hmem : e.1 ∈ names := List.fst_mem_of_mem_zipIdx he
  cases hs : s.isSortable e.1 <;> simp [hmem, hs]

/-- Without directions what is kept is ascending, as everything is. -/
theorem of_admitted_nil (s : Schema) (names : List String) :
    SortOrder.of ((SortOrder.of names []).admitted (some s)).names [] =
      (SortOrder.of names []).admitted (some s) := by
  rw [SortOrder.of_nil, SortOrder.of_nil, SortOrder.admitted, List.filter_map, SortOrder.names,
    List.map_map, List.map_map]
  rfl

theorem getD_givenDirections (ds : Option (List Direction)) :
    (givenDirections ds).getD [] = ds.getD [] := by
  rcases ds with _ | _ | ⟨d, ds⟩ <;> rfl

/-! ### What is checked -/

/-- The names that a schema admits for an ordering. -/
def sortableNames (schema : Option Schema) (names : List String) : List String :=
  match schema with
  | none => names
  | some s => names.filter s.isSortable

/-- The ordering that is checked: all of it, or where invalid parameters are replaced the part that the
schema admits. -/
def checked (schema : Option Schema) (o : Options) (sort : SortOrder) : SortOrder :=
  if o.replaces then sort.admitted schema else sort

theorem names_admitted (schema : Option Schema) (sort : SortOrder) :
    (sort.admitted schema).names = sortableNames schema sort.names := by
  cases schema with
  | none => rfl
  | some s =>
    rw [SortOrder.admitted, sortableNames, SortOrder.names, SortOrder.names, List.filter_map]
    rfl

theorem admitted_of_forall {sort : SortOrder} (h : ∀ n ∈ sort.names, s.isSortable n = true) :
    sort.admitted (some s) = sort :=
  List.filter_eq_self.2 fun t ht => h t.field (List.mem_map_of_mem ht)

theorem sortable_sort {ds : Option (List Direction)} {q : OrderParams}
    (h : (sortable s o names ds m).outcome = .ok (q, n)) :
    q.sort = checked (some s) o (OrderParams.sort (some names, ds)) := by
  unfold sortable at h
  dsimp only at h
  split at h
  · next hempty =>
    cases h
    have hall : (OrderParams.sort (some names, ds)).admitted (some s) =
        OrderParams.sort (some names, ds) :=
      admitted_of_forall (by simpa [OrderParams.sort] using unsortable_isEmpty_iff.1 hempty)
    rw [checked, hall, ite_self]
  · split at h
    · next hreplaces =>
      cases h
      rw [checked, if_pos hreplaces, OrderParams.sort, keep_sortable]
      cases ds with
      | none => exact of_admitted_nil s names
      | some ds => exact SortOrder.of_names_directions _
    · next hstrict =>
      cases h
      rw [checked, if_neg hstrict]

theorem sort_givenDirections (names : Option (List String)) (ds : Option (List Direction)) :
    OrderParams.sort (names, givenDirections ds) = OrderParams.sort (names, ds) := by
  rw [OrderParams.sort, OrderParams.sort, getD_givenDirections]

/-- **The check answers the ordering that names and directions stand for**, or the part of it that the
schema admits. -/
theorem order_sort {given : Scalars} {q r : OrderParams} (h : o.orderingOf given = .ok q)
    (hr : (order given schema o m).outcome = .ok (r, n)) : r.sort = checked schema o q.sort := by
  obtain ⟨names, ds⟩ := q
  unfold order at hr
  obtain ⟨⟨_, _⟩, hlift, hr⟩ := Outcome.bind_eq_ok_iff.1 ((Traced.bind_outcome _ _).symm.trans hr)
  rw [h] at hlift
  cases hlift
  cases names with
  | none =>
    cases hr
    unfold checked
    split
    · cases schema <;> rfl
    · rfl
  | some names =>
    cases schema with
    | none =>
      cases hr
      rw [sort_givenDirections, checked, SortOrder.admitted, ite_self]
    | some s =>
      obtain ⟨⟨⟨kept, ds'⟩, _⟩, hsortable, hr⟩ :=
        Outcome.bind_eq_ok_iff.1 ((Traced.bind_outcome _ _).symm.trans hr)
      cases hr
      rw [sort_givenDirections, sortable_sort hsortable, sort_givenDirections]

theorem order_names {given : Scalars} {q r : OrderParams} (h : o.orderingOf given = .ok q)
    (hr : (order given schema o m).outcome = .ok (r, n)) :
    r.1.getD [] = (checked schema o q.sort).names := by
  rw [← order_sort h hr, OrderParams.sort, SortOrder.names_of]

/-- Where invalid parameters are replaced, the names that are left are those that the schema admits. -/
theorem answers_order (hreplaces : o.replaces = true) {given : Scalars} {q : OrderParams}
    (h : o.orderingOf given = .ok q) :
    Answers (fun r => r.1.getD [] = sortableNames schema (q.1.getD [])) []
      (order given schema o) :=
  (passes_order hreplaces h).answers fun hr => by
    rw [order_names h hr, checked, if_pos hreplaces, names_admitted, OrderParams.sort,
      SortOrder.names_of]

/-! ### Requests -/

/-- The scalar parameters that are valid by themselves. -/
def parsed (o : Options) (es : List (Value × Value)) : Scalars :=
  (Scalars.read (Validation.admitted o es)).1

end Validation

namespace Params

open Checking Validation

variable {schema : Option Schema} {o : Options} {params : Params} {es : List (Value × Value)}

/-- **Dropping names never pairs the others with directions anew.** Where invalid parameters are replaced,
a request is ordered by the part of the given ordering that the schema admits, and the ordering keeps no
parameters from becoming a request. Elsewhere parameters become a request only if the schema admits all
names, and it is ordered as given. -/
theorem validateWith_sort {names : List String} {ds : Option (List Direction)}
    (hes : params.toEntries = .ok es) (horder : o.orderingOf (parsed o es) = .ok (some names, ds)) :
    (∀ r, (params.validateWith schema o).outcome = .ok r →
      (o.replaces = true → r.sort = (SortOrder.of names (ds.getD [])).admitted schema) ∧
      (o.replaces = false → (∀ s ∈ schema, ∀ n ∈ names, s.isSortable n = true) ∧
        r.sort = SortOrder.of names (ds.getD []))) ∧
    (o.replaces = true → Passes (order (parsed o es) schema o)) := by
  refine ⟨fun r h => ?_, fun hreplaces => passes_order hreplaces horder⟩
  obtain ⟨es', hes', h⟩ := validateWith_eq_ok_iff.1 h
  rw [hes] at hes'
  cases hes'
  obtain ⟨given, _, hscalars, _, hclean, _, _⟩ := clean_request_iff.1 h
  have hgiven : given = parsed o es := scalars_read hscalars
  subst hgiven
  have hsort : r.sort = checked schema o (SortOrder.of names (ds.getD [])) :=
    order_sort horder hclean
  refine ⟨fun hreplaces => ?_, fun hstrict => ?_⟩
  · rw [hsort, checked, if_pos hreplaces]
  · rw [checked, hstrict, if_neg Bool.false_ne_true] at hsort
    refine ⟨?_, hsort⟩
    rintro s rfl n hn
    have hnames : r.orderNames = names := by
      rw [← Request.sort_names, hsort, SortOrder.names_of]
    refine order_sortable hclean n ?_
    show n ∈ r.orderNames
    rwa [hnames]

/-- A schema that admits every other of its fields for orderings. -/
def everyOther : Schema :=
  ⟨"every other", [.plain "a" .any, .plain "b" .any, .plain "c" .any], [], ["a", "c"], .null, .null,
    .null, .null, .null⟩

/-- An ordering by names, with directions for the first three of them. -/
def threeDirections (names : List String) : List (Value × Value) :=
  [(.text "order_by", .list (names.map .text)),
    (.text "order_directions", .list [.text "asc", .text "desc", .text "asc"])]

/-- The options `admitting`, with invalid parameters replaced. -/
def replacing : Options :=
  { admitting with replaceInvalid := .bool true }

/-- Names in front of and between others are dropped with their directions, and an ordering by names that
are all admitted is kept as it is. -/
theorem validateWith_sort_everyOther :
    (∃ r, ((entries (threeDirections ["b", "a", "b", "c", "a"])).validateWith (some everyOther)
        replacing).outcome = .ok r ∧
      r.sort = [⟨"a", .desc⟩, ⟨"c", .asc⟩, ⟨"a", .asc⟩]) ∧
    ∃ r, ((entries (threeDirections ["c", "a", "a", "c"])).validateWith (some everyOther)
        admitting).outcome = .ok r ∧
      (∀ n ∈ ["c", "a", "a", "c"], everyOther.isSortable n = true) ∧
      r.sort = [⟨"c", .asc⟩, ⟨"a", .desc⟩, ⟨"a", .asc⟩, ⟨"c", .asc⟩] := by
  have hdropped : replacing.orderingOf
      (parsed replacing (threeDirections ["b", "a", "b", "c", "a"])) =
        .ok (some ["b", "a", "b", "c", "a"], some [.asc, .desc, .asc]) := rfl
  have hkept : admitting.orderingOf (parsed admitting (threeDirections ["c", "a", "a", "c"])) =
      .ok (some ["c", "a", "a", "c"], some [.asc, .desc, .asc]) := rfl
  have hentries (es : List (Value × Value)) : (entries es).toEntries = .ok es := rfl
  obtain ⟨hreplaces, _⟩ := @validateWith_sort (some everyOther) _ _ _ _ _ (hentries _) hdropped
  obtain ⟨hrejects, _⟩ := @validateWith_sort (some everyOther) _ _ _ _ _ (hentries _) hkept
  refine ⟨⟨_, rfl, (hreplaces _ rfl).1 rfl⟩, ?_⟩
  obtain ⟨hadmitted, hsort⟩ := (hrejects _ rfl).2 rfl
  exact ⟨_, rfl, hadmitted everyOther rfl, hsort⟩

end Params

end Sieve
