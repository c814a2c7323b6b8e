import Sieve.Proofs.Validation.Lossless
import Sieve.Proofs.Validation.Paginated

/-!
# Valid requests are well formed

Whatever the parameters are, and whether invalid ones are rejected or replaced, a valid request uses one
pagination strategy with sizes that are at least one, has a cursor exactly with a token, and names only
what its schema admits. Compiling a request relies on this.

* `Filter.WellFormed`: conditions and groups that can be compiled, at any depth;
* `Pagination.WellFormed`, `Request.WellFormed`: what is true of every valid request;
* `Params.MembersCaught`: parameters with no member of an enumeration that eludes the checks of numbers;
* `Params.validateWith_wellFormed`: valid requests are well formed;
* `Params.halfPage_not_wellFormed`: a page number below one that eludes them.
-/

namespace Sieve

/-- A condition is on a field that filters may use, with an operator of the field. A group is of a known
kind and holds well-formed filters, at least two or some group. -/
inductive Filter.WellFormed (schema : Option Schema) : Filter → Prop
  | condition {c : Condition} {f : Field} (hfilterable : ∀ s ∈ schema, s.isFilterable c.field = true)
      (hfield : resolveField schema c.field = .ok f) (hop : c.op ∈ f.operators) :
      WellFormed schema (.condition c)
  | group {kind : GroupKind} {fs : List Filter} (hkind : kind = .all ∨ kind = .any)
      (hfilters : ∀ f ∈ fs, WellFormed schema f)
      (henough : 2 ≤ fs.length ∨ ∃ k gs, .group k gs ∈ fs) : WellFormed schema (.group kind fs)

/-- What is true of the pagination of every valid request, with the fields that it is ordered by and
its cursor. -/
structure Pagination.WellFormed (o : Options) (names : List String) (c : Option Cursor)
    (p : Pagination) : Prop where
  /-- The parameters that are given are those of one strategy. -/
  oneStrategy : ∀ s t, p.uses s = true → p.uses t = true → s = t
  /-- Rows after or before a cursor: their number, their ordering, and the cursor of the token. -/
  cursored : ∀ s, p.strategy? = some s → s.byCursor = true →
    (p.parameters s).1.AtLeast 1 ∧ names ≠ [] ∧
    (c.isSome = true ↔ (p.parameters s).2 ≠ .null) ∧ ∀ d ∈ c, (d.map (·.1)).Perm names
  /-- A page: its number and its size. -/
  paged : p.strategy? = some .page → p.page.AtLeast 1 ∧ p.pageSize.AtLeast 1
  /-- An offset that is given. -/
  offset : p.offset = .null ∨ p.offset.AtLeast 0
  /-- Only rows after a cursor have a token to start after. -/
  after : p.strategy? ≠ some .first → p.after = .null
  /-- Only rows before a cursor have a token to end before. -/
  before : p.strategy? ≠ some .last → p.before = .null
  /-- Without rows after or before a cursor there is no cursor. -/
  uncursored : p.strategy? ≠ some .first → p.strategy? ≠ some .last → c = none
  /-- The strategy is one that options admit; skipping nothing always is. -/
  admitted : ∀ s, p.strategy? = some s → Validation.Admitted o s ∨
    s = .offset ∧ (p.offset = .null ∨ p.offset.equal (.int 0) = .ok true)

/-- What is true of every valid request. -/
structure Request.WellFormed (schema : Option Schema) (o : Options) (r : Request) : Prop where
  pagination : r.pagination.WellFormed o r.orderNames r.cursor
  /-- The schema admits the ordering. -/
  sortable : ∀ s ∈ schema, ∀ n ∈ r.orderNames, s.isSortable n = true
  /-- The filters can be compiled. -/
  filters : ∀ f ∈ r.filters, f.WellFormed schema

/-- An integer that is read is an integer, or the value of a member of an enumeration. -/
theorem Intake.integer_ok {path : String} {v n : Value} (h : integer path v = .ok n) :
    (∃ i, n = .int i) ∨ v = .member n := by
  have hmap : ∀ x : Outcome Int, Value.int <$> x = .ok n → ∃ i, n = .int i := by
    intro x hx
    cases x with
    | ok i => exact ⟨i, (Except.ok.inj hx).symm⟩
    | error ds => cases hx
  unfold integer at h
  split at h
  · exact .inl ⟨_, (Except.ok.inj h).symm⟩
  · exact .inl ⟨_, (Except.ok.inj h).symm⟩
  · exact .inl (hmap _ h)
  · exact .inl (hmap _ h)
  · exact .inl (hmap _ h)
  · cases h
  · split at h
    · exact .inl (hmap _ h)
    · cases h
  · exact .inr (congrArg _ (Except.ok.inj h))
  · cases h

theorem Scalars.number_cases (entries : List (Value × Value)) (name : String) :
    (parameter entries name Intake.integer).number = .null ∨
      (∃ i, (parameter entries name Intake.integer).number = .int i) ∨
      Value.lookup? name entries = some (.member (parameter entries name Intake.integer).number) := by
  unfold parameter
  split
  · exact .inl rfl
  · exact .inl rfl
  · next v _ hv =>
    split
    · next n hn =>
      refine .inr ((Intake.integer_ok hn).imp_right ?_)
      rintro rfl
      exact hv
    · exact .inl rfl

/-- Members of enumerations are taken by their values as numbers. No such value is above zero and below
one, or the double that is no number, where a check against zero has to find what is out of bounds. -/
def Params.MembersCaught (params : Params) : Prop :=
  ∀ es, params.toEntries = .ok es → ∀ v,
    (∀ name ∈ ["page", "page_size", "first", "last"],
      Value.lookup? name es = some (.member v) → ¬v.EludesBounds) ∧
    (Value.lookup? "offset" es = some (.member v) → v ≠ .float .nan)

namespace Validation

open Checking

variable {schema : Option Schema} {o : Options}

/-! ### Filters -/

theorem exists_group_of_enough {fs : List Filter} (h : enough fs = true) :
    2 ≤ fs.length ∨ ∃ k gs, .group k gs ∈ fs := by
  rw [enough, Bool.or_eq_true, decide_eq_true_iff, List.any_eq_true] at h
  refine h.imp_right ?_
  rintro ⟨f, hf, hnone⟩
  cases f with
  | condition c => cases hnone
  | group k gs => exact ⟨k, gs, hf⟩

theorem known_of_isOf {type : Value} {kind : GroupKind} (h : GroupKind.IsOf type kind) :
    kind = .all ∨ kind = .any := by
  cases kind with
  | all => exact .inl rfl
  | any => exact .inr rfl
  | other v => exact h.elim

mutual

/-- What a draft becomes is well formed, whether children were left out or not. -/
theorem becomes_wellFormed {skips : Bool} {d : Draft} {f : Filter}
    (h : d.Becomes schema skips f) : f.WellFormed schema := by
  match h with
  | .condition hc =>
    obtain ⟨f, hf, hop, _⟩ := hc.coerced
    exact .condition (fun s hs => (hc.filterable s hs).2) hf hop
  | .group hkind hfs henough =>
    exact .group (known_of_isOf hkind) (eachBecome_wellFormed hfs) (exists_group_of_enough henough)

theorem eachBecome_wellFormed {skips : Bool} {ds : List Draft} {fs : List Filter}
    (h : Draft.EachBecome schema skips ds fs) : ∀ f ∈ fs, f.WellFormed schema := by
  match h with
  | .nil => simp
  | .keep hf hfs =>
    intro g hg
    rcases List.mem_cons.1 hg with rfl | hg
    · exact becomes_wellFormed hf
    · exact eachBecome_wellFormed hfs g hg
  | .skip _ hfs => exact eachBecome_wellFormed hfs

end

theorem givenFilters_wellFormed {es : List (Value × Value)} {fs : List Filter}
    (h : Clean (givenFilters schema o es) fs) : ∀ f ∈ fs, f.WellFormed schema := by
  unfold givenFilters at h
  split at h
  · rcases filters_become h with ⟨rfl, _⟩ | ⟨ds, _, hfs⟩
    · simp
    · exact eachBecome_wellFormed hfs
  · cases clean_pure_iff.1 h
    simp

/-! ### Pagination -/

theorem parameters_alone (s t : Strategy) (a b : Value) :
    (alone s a b).parameters t = if t = s then (a, b) else (.null, .null) := by
  cases s <;> cases t <;> rfl

theorem uses_alone {s : Strategy} {a b : Value} (h : a ≠ .null ∨ b ≠ .null) (t : Strategy) :
    (alone s a b).uses t = true ↔ t = s := by
  have hiff : ∀ v : Value, (!v.isNull) = true ↔ v ≠ .null := fun v => by
    rw [Bool.not_eq_true', Bool.eq_false_iff, ne_eq, Value.isNull_iff]
  rw [Pagination.uses, Bool.or_eq_true, hiff, hiff, parameters_alone]
  by_cases ht : t = s
  · simpa [ht] using h
  · simp [ht]

/-- The strategy of parameters that are given is found. -/
theorem strategy?_alone {s : Strategy} {a b : Value} (h : a ≠ .null ∨ b ≠ .null) :
    (alone s a b).strategy? = some s := by
  have huses := uses_alone (s := s) h
  have hs : (alone s a b).uses s = true := (huses s).2 rfl
  have hother : ∀ t, t ≠ s → (alone s a b).uses t = false := fun t ht =>
    Bool.eq_false_iff.2 fun hused => ht ((huses t).1 hused)
  rw [Pagination.strategy?, Strategy.all]
  cases s <;> simp [List.find?, hs, hother]

variable {names : List String} {p : Pagination} {c : Option Cursor} {a b : Value}

/-- Parameters of one strategy that are as they should be for that strategy. -/
theorem wellFormed_alone {s : Strategy} (hgiven : a ≠ .null ∨ b ≠ .null)
    (hcursored : s.byCursor = true → a.AtLeast 1 ∧ names ≠ [] ∧ Anchored names b c)
    (hpaged : s = .page → a.AtLeast 1 ∧ b.AtLeast 1)
    (hoffset : s = .offset → b = .null ∨ b.AtLeast 0)
    (huncursored : s.byCursor = false → c = none)
    (hadmitted : Admitted o s ∨ s = .offset ∧ (b = .null ∨ b.equal (.int 0) = .ok true)) :
    (alone s a b).WellFormed o names c := by
  have huses := uses_alone (s := s) hgiven
  have hfound := strategy?_alone (s := s) hgiven
  -- Each clause is about the strategy in use, which is `s`, or about parameters that are null.
  refine ⟨fun t u ht hu => ((huses t).1 ht).trans ((huses u).1 hu).symm, ?_, ?_, ?_, ?_, ?_, ?_, ?_⟩
  · intro t ht hcursor
    cases hfound.symm.trans ht
    rw [parameters_alone, if_pos rfl]
    exact hcursored hcursor
  · intro hpage
    cases hfound.symm.trans hpage
    exact hpaged rfl
  · cases s with
    | offset => exact hoffset rfl
    | _ => exact .inl rfl
  · intro hne
    cases s with
    | first => exact absurd hfound hne
    | _ => rfl
  · intro hne
    cases s with
    | last => exact absurd hfound hne
    | _ => rfl
  · intro hfirst hlast
    cases s with
    | first => exact absurd hfound hfirst
    | last => exact absurd hfound hlast
    | _ => exact huncursored rfl
  · intro t ht
    cases hfound.symm.trans ht
    refine hadmitted.imp_right ?_
    rintro ⟨rfl, hzero⟩
    exact ⟨rfl, hzero⟩

/-- Nothing is wrong where nothing is given. -/
theorem wellFormed_empty : Pagination.empty.WellFormed o names none := by
  have huses : ∀ s, Pagination.empty.uses s = false := fun s => by cases s <;> rfl
  refine ⟨?_, nofun, nofun, .inl rfl, fun _ => rfl, fun _ => rfl, fun _ _ => rfl, nofun⟩
  intro s _ hs
  cases (huses s).symm.trans hs

theorem Paginated.wellFormed (h : Paginated o names p c) : p.WellFormed o names c := by
  cases h with
  | cursored hs hadmitted hn hnames hanchored =>
    exact wellFormed_alone (.inl hn.ne_null) (fun _ => ⟨hn, hnames, hanchored⟩)
      (by rintro rfl; cases hs) (by rintro rfl; cases hs)
      (fun hfalse => by cases hs.symm.trans hfalse) (.inl hadmitted)
  | paged hadmitted hpage hn =>
    exact wellFormed_alone (.inl hpage.ne_null) (by simp [Strategy.byCursor])
      (fun _ => ⟨hpage, hn⟩) (by simp) (fun _ => rfl) (.inl hadmitted)
  | skipping hadmitted hoffset =>
    exact wellFormed_alone (.inr hoffset.ne_null) (by simp [Strategy.byCursor])
      (by simp) (fun _ => .inr hoffset) (fun _ => rfl)
      (hadmitted.imp_right fun hzero => ⟨rfl, .inr hzero⟩)
  | @unpaged limit =>
    -- A limit alone counts as an offset strategy that skips nothing.
    by_cases hlimit : limit = .null
    · rw [hlimit]
      exact wellFormed_empty
    · exact wellFormed_alone (.inl hlimit) (by simp [Strategy.byCursor])
        (by simp) (fun _ => .inl rfl) (fun _ => rfl) (.inr ⟨rfl, .inl rfl⟩)

/-! ### Numbers -/

/-- A number that is read is null, an integer, or the value of a member that is given for it. -/
theorem number_admitted {P : Value → Prop} {es : List (Value × Value)} {name : String}
    (hname : name ∉ ["order_by", "order_directions"]) (hnull : P .null) (hint : ∀ i, P (.int i))
    (hmember : ∀ v, Value.lookup? name es = some (.member v) → P v) :
    P (Scalars.parameter (admitted o es) name Intake.integer).number := by
  simp only [List.mem_cons, List.not_mem_nil, or_false, not_or] at hname
  rcases Scalars.number_cases (admitted o es) name with h | ⟨i, h⟩ | h
  · rw [h]
    exact hnull
  · rw [h]
    exact hint i
  · rw [lookup?_admitted hname.1 hname.2] at h
    exact hmember _ h

theorem caught_read {es : List (Value × Value)}
    (hmembers : (Params.entries es).MembersCaught) :
    Caught (Scalars.read (admitted o es)).1.pagination := by
  have hbound : ∀ name ∈ ["page", "page_size", "first", "last"],
      ¬(Scalars.parameter (admitted o es) name Intake.integer).number.EludesBounds :=
    fun name hname => number_admitted (P := (¬Value.EludesBounds ·))
      (by fin_cases hname <;> decide) Value.not_eludesBounds_null Value.not_eludesBounds_int
      fun v => (hmembers es rfl v).1 name hname
  refine ⟨?_, hbound _ (by simp), hbound _ (by simp), hbound _ (by simp), hbound _ (by simp)⟩
  exact number_admitted (P := (· ≠ .float .nan)) (by decide) nofun nofun fun v => (hmembers es rfl v).2

theorem scalars_read {es : List (Value × Value)} {given : Scalars}
    (h : Clean (scalars o es) given) : given = (Scalars.read es).1 := by
  rw [scalars_eq] at h
  obtain ⟨_, _, h⟩ := (clean_bind_iff fun _ => adds_pure _).1 h
  exact (clean_pure_iff.1 h).symm

end Validation

namespace Params

open Validation

variable {schema : Option Schema} {o : Options} {r : Request}

/-- **Valid requests are well formed.** -/
theorem validateWith_wellFormed {params : Params} (ho : o.HasLimits) (hmembers : params.MembersCaught)
    (h : (params.validateWith schema o).outcome = .ok r) : r.WellFormed schema o := by
  obtain ⟨es, hes, h⟩ := validateWith_eq_ok_iff.1 h
  obtain ⟨given, used, hscalars, hused, horder, hfilters, hpagination⟩ := clean_request_iff.1 h
  -- Entries are read alike, whether they were given as such or belong to a request.
  have hmembers' : (Params.entries es).MembersCaught := by
    rintro es' ⟨⟩
    exact hmembers es hes
  have hcaught : Caught given.pagination := scalars_read hscalars ▸ caught_read hmembers'
  refine ⟨(pagination_paginated ho hcaught hused hpagination).wellFormed, ?_,
    givenFilters_wellFormed hfilters⟩
  rintro s ⟨⟩
  exact order_sortable horder

/-- Options with a size of pages that stands in, and with a greatest one. -/
def limited : Options := { admitting with defaultLimit := .int 20, maxLimit := .int 50 }

/-- A page, numbered by the member of an enumeration, of what a group of conditions selects. -/
def thirdPage : List (Value × Value) := (.text "page", .member (.int 3)) :: pairedFilters

theorem hasLimits_limited : limited.HasLimits :=
  ⟨.inr (by rw [Value.AtLeast, limited, Value.precedes_int]; rfl),
    .inr (by rw [Value.AtLeast, limited, Value.precedes_int]; rfl)⟩

theorem membersCaught_thirdPage : (entries thirdPage).MembersCaught := by
  rintro es ⟨⟩ v
  refine ⟨fun name hname h => ?_, by simp [thirdPage, pairedFilters, Value.lookup?]⟩
  have hv : v = .int 3 := by
    fin_cases hname <;> simp [thirdPage, pairedFilters, Value.lookup?] at h
    exact h.symm
  rw [hv]
  exact Value.not_eludesBounds_int 3

/-- The member stands for its integer, and the size of the page is that of the options. -/
theorem validateWith_wellFormed_thirdPage :
    limited.HasLimits ∧ (entries thirdPage).MembersCaught ∧
    ∃ r, ((entries thirdPage).validateWith none limited).outcome = .ok r ∧
      r.pagination = { Pagination.empty with page := .int 3, pageSize := .int 20 } ∧
      r.WellFormed none limited := by
  have hvalid : ((entries thirdPage).validateWith none limited).outcome = .ok
      ⟨[.group .all [.condition ⟨"a", .eq, .int 1⟩, .condition ⟨"b", .lt, .int 2⟩]], none, none,
        { Pagination.empty with page := .int 3, pageSize := .int 20 }, none⟩ := rfl
  exact ⟨hasLimits_limited, membersCaught_thirdPage, _, hvalid, rfl,
    validateWith_wellFormed hasLimits_limited membersCaught_thirdPage hvalid⟩

/-- A half. -/
def half : Binary64 := .finite false (2 ^ 52) (-53)

/-- A page that is numbered by a member of an enumeration with a half as its value. -/
def halfPage : List (Value × Value) :=
  [(.text "page", .member (.float half)), (.text "page_size", .int 10)]

/-- **A page number is below one where a member of an enumeration has a fraction as its value.** -/
theorem halfPage_not_wellFormed :
    admitting.HasLimits ∧ ∃ r, ((entries halfPage).validateWith none admitting).outcome = .ok r ∧
      r.strategy? = some .page ∧ ¬r.pagination.page.AtLeast 1 ∧ ¬r.WellFormed none admitting := by
  have hlow : ¬(Value.float half).AtLeast 1 := by
    rw [Value.AtLeast, Value.precedes_of_number rfl rfl]
    rintro ⟨⟩
  refine ⟨⟨.inl rfl, .inl rfl⟩, _, rfl, rfl, hlow, fun hwell => ?_⟩
  exact hlow (hwell.pagination.paged rfl).1

end Params

end Sieve
