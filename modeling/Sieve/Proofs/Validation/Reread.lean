import Sieve.Proofs.Filter.Settled
import Sieve.Proofs.Validation.Tokens

/-!
# Requests as parameters

A valid request may be given as parameters in turn. Where its numbers are integers all of it is read off
its data again, but for its ordering where options admit none. The ordering and the token of a valid request
are kept when they are checked again.

* `Pagination.Plain`: numbers that are integers, and tokens that are texts, where they are given;
* `Pagination.equal_iff`: such parameters are equal only if they are the same;
* `Request.entries`, `Validation.read_entries`: the data of a request, and what is read off it;
* `Validation.plain_read`: what is read off any data;
* `Validation.order_settled`, `Validation.token_settled`: orderings and tokens, checked again.
-/

namespace Sieve

open Outcome

/-! ### Integers and tokens -/

namespace Value

/-- The value is null or an integer. -/
def Whole (v : Value) : Prop :=
  v = .null ∨ ∃ i, v = .int i

/-- The value is null or a text. -/
def Textual (v : Value) : Prop :=
  v = .null ∨ ∃ s, v = .text s

theorem whole_null : null.Whole := .inl rfl

theorem whole_int (i : Int) : (int i).Whole := .inr ⟨i, rfl⟩

/-- Equal integers are the same, and so are equal texts. -/
theorem equal_plain {v w : Value} (hv : v.Whole ∨ v.Textual) (hw : w.Whole ∨ w.Textual) :
    v.equal w = .ok (decide (v = w)) := by
  rcases hv with (rfl | ⟨i, rfl⟩) | (rfl | ⟨s, rfl⟩) <;>
  rcases hw with (rfl | ⟨j, rfl⟩) | (rfl | ⟨t, rfl⟩) <;>
  simp [equal, number?] <;> rfl

theorem equalItems_plain {vs ws : List Value} (hvs : ∀ v ∈ vs, v.Whole ∨ v.Textual)
    (hws : ∀ w ∈ ws, w.Whole ∨ w.Textual) : equalItems vs ws = .ok (decide (vs = ws)) := by
  induction vs generalizing ws with
  | nil => cases ws <;> simp [equalItems]
  | cons v vs ih =>
    cases ws with
    | nil => simp [equalItems]
    | cons w ws =>
      rw [List.forall_mem_cons] at hvs hws
      rw [equalItems, equal_plain hvs.1 hws.1, ok_bind]
      by_cases h : v = w
      · simp [h, ih hvs.2 hws.2]
      · simp [h]

end Value

/-- Members of enumerations that are given as numbers have integers as values. -/
def Params.MembersWhole (params : Params) : Prop :=
  ∀ es, params.toEntries = .ok es → ∀ v,
    ∀ name ∈ ["limit", "offset", "page", "page_size", "first", "last"],
      Value.lookup? name es = some (.member v) → v.Whole

namespace Pagination

/-- Numbers are integers, and tokens are texts, where they are given. -/
structure Plain (p : Pagination) : Prop where
  limit : p.limit.Whole
  offset : p.offset.Whole
  page : p.page.Whole
  pageSize : p.pageSize.Whole
  first : p.first.Whole
  after : p.after.Textual
  last : p.last.Whole
  before : p.before.Textual

theorem Plain.mem {p : Pagination} (hp : p.Plain) : ∀ v ∈ p.toList, v.Whole ∨ v.Textual := by
  simp only [toList, List.forall_mem_cons]
  exact ⟨.inl hp.limit, .inl hp.offset, .inl hp.page, .inl hp.pageSize, .inl hp.first,
    .inr hp.after, .inl hp.last, .inr hp.before, by simp⟩

/-- Equal parameters are the same. -/
theorem equal_iff {p q : Pagination} (hp : p.Plain) (hq : q.Plain) :
    p.equal q = .ok true ↔ p = q := by
  unfold equal
  split
  · next h => simp [h]
  · next h =>
    have hne : p.toList ≠ q.toList := by
      intro hlist
      apply h
      obtain ⟨_, _, _, _, _, _, _, _⟩ := p
      obtain ⟨_, _, _, _, _, _, _, _⟩ := q
      simpa [toList] using hlist
    rw [Value.equalItems_plain hp.mem hq.mem, decide_eq_false hne]
    simp [h]

end Pagination

namespace Filter

mutual

theorem equal_self : ∀ f : Filter, equal f f = .ok true
  | .condition c => by simp [equal]
  | .group k fs => by simp [equal, equalAll_self fs]

theorem equalAll_self : ∀ fs : List Filter, equalAll fs fs = .ok true
  | [] => rfl
  | f :: fs => by simp [equalAll, equal_self f, equalAll_self fs]

end

end Filter

/-! ### Reading a request -/

/-- The names and data of a request. -/
def Request.entries (r : Request) : List (Value × Value) :=
  (("filters", Value.list (Filter.toValues r.filters)) ::
    Params.ofScalars ⟨r.orderBy, r.directions, r.pagination⟩).map fun e => (.text e.1, e.2)

namespace Scalars

variable {es : List (Value × Value)} {name : String} {v : Value}

theorem parameter_whole (h : Value.lookup? name es = some v) (hv : v.Whole) :
    (parameter es name Intake.integer).number = v ∧
      (parameter es name Intake.integer).complaints = [] := by
  unfold parameter
  rw [h]
  rcases hv with rfl | ⟨i, rfl⟩ <;> exact ⟨rfl, rfl⟩

theorem parameter_textual (h : Value.lookup? name es = some v) (hv : v.Textual) :
    (parameter es name Intake.text).text = v ∧
      (parameter es name Intake.text).complaints = [] := by
  unfold parameter
  rw [h]
  rcases hv with rfl | ⟨s, rfl⟩ <;> exact ⟨rfl, rfl⟩

theorem collect_map {α β : Type} {g : α → β} (read : β → ℕ → Intake.Outcome α)
    (h : ∀ a i, read (g a) i = .ok a) (as : List α) (i : ℕ) :
    Intake.collect (((as.map g).zipIdx i).map fun e => read e.1 e.2) = .ok as := by
  induction as generalizing i with
  | nil => rfl
  | cons a as ih => simp [Intake.collect, h, ih]

/-- A list that was read is read again from its items as data. -/
theorem parameter_list {α : Type} {g : α → Value} {item : String → Value → Intake.Outcome α}
    (hitem : ∀ path a, item path (g a) = .ok a) {as : Option (List α)}
    (h : Value.lookup? name es = some ((as.map fun as => Value.tuple (as.map g)).getD .null)) :
    parameter es name (listOf item) = ⟨as, []⟩ := by
  unfold parameter
  rw [h]
  cases as with
  | none => rfl
  | some as =>
    have hread : listOf item name (.tuple (as.map g)) = .ok as :=
      collect_map (fun v i => item (Intake.itemPath name i) v) (fun a i => hitem _ a) as 0
    simp only [Option.map_some, Option.getD_some, hread]

end Scalars

namespace Validation

open Checking

variable {schema : Option Schema} {o : Options} {r : Request}

theorem toEntries_request (r : Request) : (Params.request r).toEntries = .ok r.entries := rfl

/-- Orderings are found among the data of a request where options admit them. -/
theorem lookup?_entries_order {key : String} {v : Value}
    (hkey : key = "order_by" ∨ key = "order_directions")
    (h : Value.lookup? key r.entries = some v) :
    Value.lookup? key (admitted o r.entries) = if o.orders then some v else none := by
  split
  · next horders => rw [admitted, if_pos horders, h]
  · next horders => exact lookup?_order hkey (by simpa using horders)

theorem parameter_of_order {α : Type} {name : String} {as : Option α} {v : Value}
    {read : String → Value → Intake.Outcome α} (hname : name = "order_by" ∨ name = "order_directions")
    (hv : Value.lookup? name r.entries = some v)
    (h : Scalars.parameter r.entries name read = ⟨as, []⟩) :
    Scalars.parameter (admitted o r.entries) name read = ⟨if o.orders then as else none, []⟩ := by
  have hfound := lookup?_entries_order (o := o) hname hv
  by_cases horders : o.orders = true
  · rw [if_pos horders] at hfound ⊢
    rw [← h]
    simp only [Scalars.parameter, hfound, hv]
  · rw [if_neg horders] at hfound ⊢
    simp only [Scalars.parameter, hfound]

/-- **A request is read as it is**, but for its ordering where options admit none. -/
theorem read_entries (hr : r.pagination.Plain) :
    Scalars.read (admitted o r.entries) =
      (⟨if o.orders then r.orderBy else none, if o.orders then r.directions else none,
        r.pagination⟩, []) := by
  have hfind : ∀ key, key ≠ "order_by" → key ≠ "order_directions" →
      Value.lookup? key (admitted o r.entries) = Value.lookup? key r.entries :=
    fun key hnames hdirections => lookup?_admitted hnames hdirections
  have hnames : Scalars.parameter (admitted o r.entries) "order_by" (Scalars.listOf Intake.text) =
      ⟨if o.orders then r.orderBy else none, []⟩ :=
    parameter_of_order (.inl rfl) rfl (Scalars.parameter_list Intake.text_text rfl)
  have hdirections : Scalars.parameter (admitted o r.entries) "order_directions"
      (Scalars.listOf Scalars.direction) = ⟨if o.orders then r.directions else none, []⟩ :=
    parameter_of_order (.inr rfl) rfl
      (Scalars.parameter_list (fun _ d => by simp [Scalars.direction, Except.toOption]) rfl)
  have hlimit := Scalars.parameter_whole (hfind "limit" (by decide) (by decide)) hr.limit
  have hoffset := Scalars.parameter_whole (hfind "offset" (by decide) (by decide)) hr.offset
  have hpage := Scalars.parameter_whole (hfind "page" (by decide) (by decide)) hr.page
  have hpageSize := Scalars.parameter_whole (hfind "page_size" (by decide) (by decide)) hr.pageSize
  have hfirst := Scalars.parameter_whole (hfind "first" (by decide) (by decide)) hr.first
  have hafter := Scalars.parameter_textual (hfind "after" (by decide) (by decide)) hr.after
  have hlast := Scalars.parameter_whole (hfind "last" (by decide) (by decide)) hr.last
  have hbefore := Scalars.parameter_textual (hfind "before" (by decide) (by decide)) hr.before
  simp only [Scalars.read, hnames, hdirections, hlimit, hoffset, hpage, hpageSize, hfirst, hafter,
    hlast, hbefore, List.append_nil]

/-! ### Numbers and tokens that are read -/

theorem textual_read (es : List (Value × Value)) (name : String) :
    (Scalars.parameter es name Intake.text).text.Textual := by
  unfold Scalars.Reading.text
  cases (Scalars.parameter es name Intake.text).value with
  | none => exact .inl rfl
  | some s => exact .inr ⟨s, rfl⟩

theorem plain_read {es : List (Value × Value)} (h : (Params.entries es).MembersWhole) :
    (Scalars.read (admitted o es)).1.pagination.Plain := by
  have hwhole : ∀ name ∈ ["limit", "offset", "page", "page_size", "first", "last"],
      (Scalars.parameter (admitted o es) name Intake.integer).number.Whole :=
    fun name hname => number_admitted (P := Value.Whole) (by fin_cases hname <;> decide)
      Value.whole_null Value.whole_int fun v => h es rfl v name hname
  exact ⟨hwhole _ (by simp), hwhole _ (by simp), hwhole _ (by simp), hwhole _ (by simp),
    hwhole _ (by simp), textual_read _ _, hwhole _ (by simp), textual_read _ _⟩

/-- Without orderings none is read. -/
theorem ordering_read {es : List (Value × Value)} (h : o.orders = false) :
    (Scalars.read (admitted o es)).1.orderBy = none ∧
      (Scalars.read (admitted o es)).1.directions = none := by
  have hnames : Value.lookup? "order_by" (admitted o es) = none := lookup?_order (.inl rfl) h
  have hdirections : Value.lookup? "order_directions" (admitted o es) = none :=
    lookup?_order (.inr rfl) h
  simp only [Scalars.read, Scalars.parameter, hnames, hdirections, and_self]

/-! ### Orderings and tokens -/

theorem givenDirections_givenDirections (ds : Option (List Direction)) :
    givenDirections (givenDirections ds) = givenDirections ds := by
  cases ds with
  | none => rfl
  | some ds => cases ds <;> rfl

theorem clean_order_iff {given : Scalars} {names : Option (List String)}
    {directions : Option (List Direction)} :
    Clean (order given schema o) (names, directions) ↔ ∃ ns ds, o.orderingOf given = .ok (ns, ds) ∧
      match ns, schema with
      | some ns, some s => ∃ ds', Clean (sortable s o ns (givenDirections ds)) (names, ds') ∧
          directions = givenDirections ds'
      | ns, _ => names = ns ∧ directions = givenDirections ds := by
  unfold order
  rw [clean_lift_bind_iff]
  constructor
  · rintro ⟨⟨ns, ds⟩, hq, h⟩
    refine ⟨ns, ds, hq, ?_⟩
    cases ns with
    | none =>
      cases clean_pure_iff.1 h
      exact ⟨rfl, rfl⟩
    | some ns =>
      cases schema with
      | none =>
        cases clean_pure_iff.1 h
        exact ⟨rfl, rfl⟩
      | some s =>
        obtain ⟨⟨ns', ds'⟩, hsortable, h⟩ := (clean_bind_iff fun _ => adds_pure _).1 h
        cases clean_pure_iff.1 h
        exact ⟨ds', hsortable, rfl⟩
  · rintro ⟨ns, ds, hq, h⟩
    refine ⟨(ns, ds), hq, ?_⟩
    cases ns with
    | none =>
      obtain ⟨rfl, rfl⟩ := h
      exact clean_pure_iff.2 rfl
    | some ns =>
      cases schema with
      | none =>
        obtain ⟨rfl, rfl⟩ := h
        exact clean_pure_iff.2 rfl
      | some s =>
        obtain ⟨ds', hsortable, rfl⟩ := h
        exact (clean_bind_iff fun _ => adds_pure _).2 ⟨(names, ds'), hsortable, clean_pure_iff.2 rfl⟩

/-- Names that the schema admits are kept with their directions. -/
theorem sortable_of_forall {s : Schema} {ns : List String} (h : ∀ n ∈ ns, s.isSortable n = true)
    (ds : Option (List Direction)) : sortable s o ns ds = pure (some ns, ds) := by
  simp only [sortable, unsortable_isEmpty_iff.2 h, if_true]

theorem names_of_sortable {s : Schema} {ns : List String} {ds ds' : Option (List Direction)}
    {names : Option (List String)} (h : Clean (sortable s o ns ds) (names, ds')) :
    ∃ ns', names = some ns' := by
  unfold sortable at h
  dsimp only at h
  split at h
  · cases clean_pure_iff.1 h
    exact ⟨_, rfl⟩
  · split at h
    · cases clean_report_bind_iff.1 h
      exact ⟨_, rfl⟩
    · exact absurd h not_clean_complain_bind

/-- The ordering of a valid request is kept when it is checked again. If options admit none, the one that
stands in is put in again. -/
theorem order_settled {given : Scalars} {names : Option (List String)}
    {directions : Option (List Direction)}
    (hgiven : o.orders = false → given.orderBy = none ∧ given.directions = none)
    (h : Clean (order given schema o) (names, directions)) (p : Pagination) :
    Clean (order ⟨if o.orders then names else none, if o.orders then directions else none, p⟩
      schema o) (names, directions) := by
  rw [clean_order_iff] at h ⊢
  obtain ⟨ns, ds, hq, h⟩ := h
  by_cases horders : o.orders = true
  · rw [if_pos horders, if_pos horders]
    cases ns with
    | none =>
      -- No names are given, and none stand in.
      obtain ⟨rfl, rfl⟩ := h
      unfold Options.orderingOf at hq ⊢
      cases hnames : given.orderBy with
      | some ns => simp [hnames] at hq
      | none =>
        simp only [hnames] at hq
        obtain ⟨q, hdefault, hq⟩ := bind_eq_ok_iff.1 hq
        refine ⟨none, q.elim (givenDirections ds) Prod.snd, ?_, rfl, ?_⟩
        · cases q with
          | none => simp [hdefault]
          | some q =>
            cases hq
            simp [hdefault]
        · cases q with
          | none => exact (givenDirections_givenDirections ds).symm
          | some q =>
            cases hq
            rfl
    | some ns =>
      cases schema with
      | none =>
        obtain ⟨rfl, rfl⟩ := h
        exact ⟨some ns, _, rfl, rfl, (givenDirections_givenDirections ds).symm⟩
      | some s =>
        obtain ⟨ds', hsortable, rfl⟩ := h
        obtain ⟨ns', rfl⟩ := names_of_sortable hsortable
        refine ⟨some ns', _, rfl, givenDirections ds', ?_, (givenDirections_givenDirections ds').symm⟩
        have hadmitted : ∀ n ∈ ns', s.isSortable n = true := sortable_sortable hsortable
        dsimp only
        rw [sortable_of_forall hadmitted, givenDirections_givenDirections]
        exact clean_pure_iff.2 rfl
  · rw [if_neg horders, if_neg horders]
    obtain ⟨hnames, hdirections⟩ := hgiven (by simpa using horders)
    refine ⟨ns, ds, ?_, h⟩
    rw [← hq]
    simp only [Options.orderingOf, hnames, hdirections]

/-- A token is kept, or dropped with its cursor. -/
theorem clean_token_cases {name : String} {orderBy : Option (List String)} {given kept : Value}
    {c : Option Cursor} (h : Clean (token schema o name orderBy given) (kept, c)) :
    kept = given ∨ kept = .null ∧ c = none := by
  have hdropped (reason : String) (h : Clean (do
      report (.paramDropped name reason)
      return (Value.null, (none : Option Cursor))) (kept, c)) : kept = .null ∧ c = none := by
    cases clean_report_bind_iff.1 h
    exact ⟨rfl, rfl⟩
  unfold token at h
  split at h
  · cases clean_pure_iff.1 h
    exact .inl rfl
  · dsimp only at h
    split at h
    · split at h
      · exact absurd h not_clean_fail
      · split at h
        · exact .inr (hdropped _ h)
        · exact absurd h not_clean_fail
    · split at h
      · cases clean_pure_iff.1 h
        exact .inl rfl
      · split at h
        · exact .inr (hdropped _ h)
        · exact absurd h not_clean_complain_bind

/-- A token that was checked is kept, with its cursor, when it is checked again. -/
theorem token_settled {name : String} {orderBy : Option (List String)} {given kept : Value}
    {c : Option Cursor} (h : Clean (token schema o name orderBy given) (kept, c)) :
    Clean (token schema o name orderBy kept) (kept, c) := by
  rcases clean_token_cases h with rfl | ⟨rfl, rfl⟩
  · exact h
  · exact clean_pure_iff.2 rfl

end Validation

end Sieve
