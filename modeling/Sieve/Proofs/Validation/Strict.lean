import Sieve.Plan.Compile
import Sieve.Proofs.Cursor.Reading
import Sieve.Proofs.Validation.Declared
import Sieve.Proofs.Validation.Parsing

/-!
# Strictly checked parameters of pages

Where invalid parameters are not replaced, a valid request has the very parameters that were given.
Parameters for another page, with another size and another token beside the same rest, are then valid
for a size within the limits and a token that fits the ordering, and become the same request for
another part of the result.

* `Params.page`: the parameters of a page after a token;
* `Options.AdmitsSize`, `Validation.Fits`: what a size and a token have to meet;
* `Params.page_valid_iff`: valid parameters of another page, and the request that they become;
* `Params.IsForward`: what that request asks for.
-/

namespace Sieve

/-- The parameters of a page of some rows after a token; null stands for no token. -/
def Params.page (base : List (Value × Value)) (n : ℕ) (after : Value) : Params :=
  .entries ((.text "first", .int n) :: (.text "after", after) :: base)

/-- The request for a page of some rows after a token, which was decoded to a cursor. -/
def Request.onward (r : Request) (n : ℕ) (after : Value) (c : Option Cursor) : Request :=
  { r with pagination := { r.pagination with first := .int n, after := after }, cursor := c }

/-- The size is positive and not above the greatest limit. -/
def Options.AdmitsSize (o : Options) (n : ℕ) : Prop :=
  0 < n ∧ (o.maxLimit.isNull = true ∨ o.maxLimit.precedes false (.int n) = .ok false)

namespace Validation

open Checking

variable {schema : Option Schema} {o : Options}

/-! ### Sizes -/

theorem not_clean_replace (hstrict : o.replaces = false) {name : String} {n r m : Value}
    {message : Except Error String} : ¬ Clean (replace o name n r message) m := by
  rw [replace, hstrict]
  intro h
  obtain ⟨_, _, h⟩ := clean_lift_bind_iff.1 h
  exact not_clean_complain_bind h

theorem precedes_le_int (m n : Int) :
    Value.precedes true (.int m) (.int n) = .ok (decide (m ≤ n)) := by
  rw [Value.precedes_int]
  rcases lt_trichotomy m n with h | rfl | h
  · rw [Int.compare_eq_lt.2 h, decide_eq_true h.le]
    rfl
  · rw [Int.compare_eq_eq.2 rfl, decide_eq_true le_rfl]
    rfl
  · rw [Int.compare_eq_gt.2 h, decide_eq_false (not_le.2 h)]
    rfl

/-- The checks of a size that is given. -/
theorem size_eq (o : Options) (name : String) (required : Bool) (n : Int) :
    size o name required (.int n) =
      Checking.lift (Value.precedes true (.int n) (.int 0)) >>= fun low =>
        if low then do
          let r ← replace o name (.int n) o.defaultLimit (.ok "must be greater than 0")
          require name required r
          return r
        else if o.maxLimit.isNull then return .int n
        else do
          if ← Checking.lift (o.maxLimit.precedes false (.int n)) then
            replace o name (.int n) o.maxLimit (tooGreat o.maxLimit)
          else return .int n := by
  have hgiven : Options.setting (.int n) o.defaultLimit = .int n := rfl
  simp only [size, hgiven]
  rfl

/-- A size is kept if it is admitted. -/
theorem clean_size_iff (hstrict : o.replaces = false) {name : String} {required : Bool} {n : ℕ}
    {m : Value} : Clean (size o name required (.int n)) m ↔ o.AdmitsSize n ∧ m = .int n := by
  rw [size_eq, clean_lift_bind_iff, precedes_le_int]
  unfold Options.AdmitsSize
  constructor
  · rintro ⟨low, hb, h⟩
    cases hb
    by_cases hn : (n : Int) ≤ 0
    · rw [decide_eq_true hn, if_pos rfl] at h
      obtain ⟨_, h, _⟩ := (clean_bind_iff fun _ =>
        adds_bind (adds_require _ _ _) fun _ => adds_pure _).1 h
      exact absurd h (not_clean_replace hstrict)
    · rw [decide_eq_false hn] at h
      simp only [Bool.false_eq_true, if_false] at h
      by_cases hmax : o.maxLimit.isNull = true
      · rw [if_pos hmax] at h
        exact ⟨⟨by omega, .inl hmax⟩, (clean_pure_iff.1 h).symm⟩
      · rw [if_neg hmax, clean_lift_bind_iff] at h
        obtain ⟨high, hhigh, h⟩ := h
        cases high with
        | true => exact absurd h (not_clean_replace hstrict)
        | false => exact ⟨⟨by omega, .inr hhigh⟩, (clean_pure_iff.1 h).symm⟩
  · rintro ⟨⟨hn, hmax⟩, rfl⟩
    refine ⟨_, rfl, ?_⟩
    rw [decide_eq_false (by omega)]
    simp only [Bool.false_eq_true, if_false]
    split
    · exact clean_pure_iff.2 rfl
    · rcases hmax with hmax | hmax
      · contradiction
      · exact clean_lift_bind_iff.2 ⟨false, hmax, clean_pure_iff.2 rfl⟩

/-! ### Tokens -/

/-- The token leads to the cursor, which is one for the ordering; no token leads to none. -/
def Fits (schema : Option Schema) (names : List String) (given : Value) : Option Cursor → Prop
  | none => given.isNull = true
  | some c => given.isNull = false ∧ typedCursor schema given = .ok c.raw ∧
    (c.map Prod.fst).isPerm names = true

/-- A token is kept if it fits the ordering. -/
theorem clean_token_iff (hstrict : o.replaces = false) {orderBy : Option (List String)}
    (hnames : orderBy.getD [] ≠ []) {name : String} {given kept : Value} {c : Option Cursor} :
    Clean (token schema o name orderBy given) (kept, c) ↔
      Fits schema (orderBy.getD []) given c ∧ kept = given := by
  have hordered : (orderBy.getD []).isEmpty = false := by simpa using hnames
  rw [token_eq, hordered, Bool.or_false]
  by_cases hnull : given.isNull = true
  · rw [if_pos hnull, clean_pure_iff, Prod.mk.injEq]
    cases c with
    | none => exact ⟨fun h => ⟨hnull, h.1.symm⟩, fun h => ⟨h.2.symm, rfl⟩⟩
    | some c => simp [Fits, hnull]
  · rw [if_neg hnull, hstrict]
    have hnull' : given.isNull = false := Bool.eq_false_iff.2 hnull
    cases hc : typedCursor schema given with
    | error e =>
      simp only [Bool.false_eq_true, if_false, not_clean_fail, false_iff]
      rintro ⟨hfits, _⟩
      cases c with
      | none => exact hnull hfits
      | some c => simp [Fits, hc] at hfits
    | ok d =>
      by_cases hperm : (d.map (·.1)).isPerm ((orderBy.getD []).map .whole) = true
      · obtain ⟨d, rfl, hnames'⟩ := RawCursor.isPerm_iff.1 hperm
        simp only [hperm, if_true, RawCursor.whole_raw, clean_pure_iff, Prod.mk.injEq]
        cases c with
        | none => simp [Fits, hnull']
        | some c =>
          simp only [Fits, hnull', hc, Option.some.injEq, Except.ok.injEq, Cursor.raw_inj, true_and]
          constructor
          · rintro ⟨rfl, rfl⟩
            exact ⟨⟨rfl, hnames'⟩, rfl⟩
          · rintro ⟨⟨rfl, _⟩, rfl⟩
            exact ⟨rfl, rfl⟩
      · simp only [hperm, Bool.false_eq_true, if_false]
        constructor
        · intro h
          exact absurd h not_clean_complain_bind
        · rintro ⟨hfits, _⟩
          cases c with
          | none => exact absurd hfits hnull
          | some c =>
            obtain ⟨_, hd, hd'⟩ := hfits
            rw [hc] at hd
            exact absurd (RawCursor.isPerm_iff.2 ⟨c, Except.ok.inj hd, hd'⟩) hperm

/-! ### Scalar parameters -/

theorem adds_dropScalars (complaints : List Detail) : Adds (dropScalars o complaints) := by
  induction complaints with
  | nil => exact adds_pure _
  | cons d complaints ih =>
    refine adds_bind ?_ fun _ => ih
    split
    · exact adds_report _
    · exact adds_complain _ _

theorem clean_dropScalars_iff (hstrict : o.replaces = false) {complaints : List Detail} {u : Unit} :
    Clean (dropScalars o complaints) u ↔ complaints = [] := by
  cases complaints with
  | nil => exact ⟨fun _ => rfl, fun _ => clean_pure_iff.2 rfl⟩
  | cons d complaints =>
    have hcons : dropScalars o (d :: complaints) =
        complain d.path d.message >>= fun _ => dropScalars o complaints := by
      unfold dropScalars
      rw [hstrict]
      rfl
    rw [hcons, clean_bind_iff fun _ => adds_dropScalars _]
    simp

/-- Scalar parameters are read without a complaint. -/
theorem clean_scalars_iff (hstrict : o.replaces = false) {entries : List (Value × Value)}
    {given : Scalars} :
    Clean (scalars o entries) given ↔ Scalars.read entries = (given, []) := by
  rw [scalars_eq, clean_bind_iff fun _ => adds_pure _]
  simp only [clean_dropScalars_iff hstrict, clean_pure_iff, exists_const]
  rw [Prod.ext_iff, and_comm]

theorem lookup?_filter {key : String} {p : Value × Value → Bool} (hp : ∀ v, p (.text key, v) = true)
    (es : List (Value × Value)) : Value.lookup? key (es.filter p) = Value.lookup? key es := by
  induction es with
  | nil => rfl
  | cons e es ih =>
    obtain ⟨k, v⟩ := e
    by_cases hk : k = .text key
    · subst hk
      rw [List.filter_cons_of_pos (hp v), Value.lookup?_cons_self, Value.lookup?_cons_self]
    · have hskip : ∀ es : List (Value × Value), Value.lookup? key ((k, v) :: es) =
          Value.lookup? key es := by
        intro es
        cases k with
        | text name => rw [Value.lookup?, if_neg fun hname => hk (congrArg Value.text hname)]
        | _ => simp [Value.lookup?]
      by_cases hkv : p (k, v) = true
      · rw [List.filter_cons_of_pos hkv, hskip, hskip, ih]
      · rw [List.filter_cons_of_neg hkv, hskip, ih]

/-- What has nothing to do with an ordering is admitted. -/
theorem lookup?_admitted {key : String} (hnames : key ≠ "order_by")
    (hdirections : key ≠ "order_directions") {es : List (Value × Value)} :
    Value.lookup? key (admitted o es) = Value.lookup? key es := by
  unfold admitted
  split
  · rfl
  · exact lookup?_filter (fun v => by simp [hnames, hdirections]) es

end Validation

namespace Scalars

theorem parameter_skip {α : Type} {k name : String} (h : k ≠ name) (v : Value)
    (entries : List (Value × Value)) (f : String → Value → Intake.Outcome α) :
    parameter ((.text k, v) :: entries) name f = parameter entries name f := by
  unfold parameter
  rw [Value.lookup?, if_neg h]

theorem parameter_first (n : ℕ) (entries : List (Value × Value)) :
    parameter ((.text "first", .int n) :: entries) "first" Intake.integer = ⟨some (.int n), []⟩ := by
  simp [parameter]

theorem parameter_after {after : Value} (h : after = .null ∨ ∃ t, after = .text t)
    (entries : List (Value × Value)) :
    parameter ((.text "after", after) :: entries) "after" Intake.text =
      ⟨if let .text t := after then some t else none, []⟩ := by
  rcases h with rfl | ⟨t, rfl⟩
  · simp [parameter]
  · simp [parameter]

/-- The scalar parameters for a page: those for another page, with another size and token. -/
theorem read_page {n : ℕ} {after : Value} (h : after = .null ∨ ∃ t, after = .text t)
    {given : Scalars} {base : List (Value × Value)}
    (hgiven : read ((.text "first", .int n) :: (.text "after", .null) :: base) = (given, []))
    (m : ℕ) :
    read ((.text "first", .int m) :: (.text "after", after) :: base) =
      ({ given with pagination := { given.pagination with first := .int m, after := after } }, []) := by
  have hafter : Reading.text ⟨if let .text t := after then some t else none, []⟩ = after := by
    rcases h with rfl | ⟨t, rfl⟩ <;> rfl
  simp only [read, Prod.mk.injEq] at hgiven ⊢
  obtain ⟨rfl, hcomplaints⟩ := hgiven
  simp only [parameter_first, parameter_skip, parameter_after h, parameter_after (.inl rfl), hafter,
    ne_eq, String.reduceEq, not_false_eq_true] at hcomplaints ⊢
  exact ⟨rfl, hcomplaints⟩

theorem first_of_read_page {n : ℕ} {after : Value} {given : Scalars} {ds : List Detail}
    {base : List (Value × Value)}
    (hgiven : read ((.text "first", .int n) :: (.text "after", after) :: base) = (given, ds)) :
    given.pagination.first = .int n := by
  simp only [read, Prod.mk.injEq] at hgiven
  obtain ⟨rfl, _⟩ := hgiven
  rw [parameter_first]
  rfl

end Scalars

/-! ### Strategies -/

namespace Pagination

variable {p : Pagination}

/-- Another size and another token are parameters of the same strategy. -/
theorem used_page {n : ℕ} (hfirst : p.first = .int n) (m : ℕ) (after : Value) :
    { p with first := .int m, after := after }.used = p.used := by
  unfold used
  refine List.filter_congr fun s _ => ?_
  cases s with
  | first => simp [uses, parameters, hfirst, Value.isNull]
  | last | page | offset => rfl

theorem used_eq_of_conflict {n : ℕ} (hfirst : p.first = .int n) {used : Option Strategy}
    (h : Validation.conflict p = .ok used) : p.used = [.first] ∧ used = some .first := by
  have hmem : Strategy.first ∈ p.used :=
    List.mem_filter.2 ⟨by decide, by simp [uses, parameters, hfirst, Value.isNull]⟩
  unfold Validation.conflict at h
  rcases hused : p.used with _ | ⟨s, _ | ⟨t, rest⟩⟩
  · rw [hused] at hmem
    cases hmem
  · rw [hused] at hmem h
    rw [← List.mem_singleton.1 hmem] at h ⊢
    cases h
    exact ⟨rfl, rfl⟩
  · rw [hused] at h
    cases h

theorem conflict_of_used (h : p.used = [.first]) : Validation.conflict p = .ok (some .first) := by
  rw [Validation.conflict, h]

theorem strategy?_of_used (h : p.used = [.first]) : p.strategy? = some .first := by
  unfold used at h
  rw [strategy?, ← List.head?_filter, h]
  rfl

end Pagination

namespace Validation

open Checking

variable {schema : Option Schema} {o : Options}

theorem clean_requireOrder_iff {orderBy : Option (List String)} {u : Unit} :
    Clean (requireOrder orderBy) u ↔ orderBy.getD [] ≠ [] := by
  unfold requireOrder
  by_cases h : orderBy.getD [] = []
  · simp [h]
  · have hordered : (orderBy.getD []).isEmpty = false := by simpa using h
    simp [hordered, h]

/-- The parameters of a page after a token are kept, and the token is decoded. -/
theorem clean_pagination_iff (hstrict : o.replaces = false) {orderBy : Option (List String)}
    {p q : Pagination} {n : ℕ} (hfirst : p.first = .int n) {c : Option Cursor} :
    Clean (pagination schema o orderBy p (some .first)) (q, c) ↔
      (admits o p .first = true ∧ orderBy.getD [] ≠ []) ∧ o.AdmitsSize n ∧
        Fits schema (orderBy.getD []) p.after c ∧ q = p := by
  have hpagination : pagination schema o orderBy p (some .first) =
      if admits o p .first then parameters schema o orderBy p (some .first)
      else do
        complain (notAdmitted .first).1 (notAdmitted .first).2
        return (p, none) := rfl
  rw [hpagination]
  by_cases hadmits : admits o p .first = true
  · rw [if_pos hadmits]
    have hparameters : parameters schema o orderBy p (some .first) = (do
      let m ← size o "first" true p.first
      requireOrder orderBy
      let found ← token schema o "after" orderBy p.after
      return ({ p with first := m, after := found.1 }, found.2)) := rfl
    rw [hparameters, hfirst, clean_bind_iff fun _ => adds_bind (adds_requireOrder _) fun _ =>
      adds_bind (adds_token _ _ _) fun _ => adds_pure _]
    simp only [clean_bind_iff fun _ => adds_bind (adds_token _ _ _) fun _ => adds_pure _,
      clean_bind_iff fun _ => adds_pure _, clean_requireOrder_iff, clean_size_iff hstrict]
    have hself : { p with first := .int n, after := p.after } = p := by rw [← hfirst]
    constructor
    · rintro ⟨m, ⟨hsize, rfl⟩, u, hnames, ⟨after, d⟩, htoken, h⟩
      obtain ⟨hfits, rfl⟩ := (clean_token_iff hstrict hnames).1 htoken
      rw [clean_pure_iff, hself, Prod.mk.injEq] at h
      obtain ⟨rfl, rfl⟩ := h
      exact ⟨⟨hadmits, hnames⟩, hsize, hfits, rfl⟩
    · rintro ⟨⟨_, hnames⟩, hsize, hfits, rfl⟩
      refine ⟨.int n, ⟨hsize, rfl⟩, (), hnames, (q.after, c),
        (clean_token_iff hstrict hnames).2 ⟨hfits, rfl⟩, ?_⟩
      rw [clean_pure_iff, hself]
  · rw [if_neg hadmits]
    constructor
    · intro h
      exact absurd h not_clean_complain_bind
    · rintro ⟨⟨h, _⟩, _⟩
      exact absurd h hadmits

end Validation

namespace Params

open Checking Validation

variable {schema : Option Schema} {o : Options} {base : List (Value × Value)} {n : ℕ} {r : Request}

theorem admitted_page (n : ℕ) (after : Value) (base : List (Value × Value)) :
    admitted o ((.text "first", .int n) :: (.text "after", after) :: base) =
      (.text "first", .int n) :: (.text "after", after) :: admitted o base := by
  unfold admitted
  split
  · rfl
  · simp

/-- What is checked about the parameters of a page. -/
theorem validateWith_page_iff {after : Value} :
    ((page base n after).validateWith schema o).outcome = .ok r ↔
      ∃ (given : Scalars) (used : Option Strategy),
        Clean (scalars o ((.text "first", .int n) :: (.text "after", after) :: admitted o base))
          given ∧
        conflict given.pagination = .ok used ∧
        Clean (order given schema o) (r.orderBy, r.directions) ∧
        Clean (givenFilters schema o (admitted o base)) r.filters ∧
        Clean (pagination schema o r.orderBy given.pagination used) (r.pagination, r.cursor) := by
  have hfilters : givenFilters schema o
      ((.text "first", .int n) :: (.text "after", after) :: admitted o base) =
        givenFilters schema o (admitted o base) := rfl
  rw [validateWith_eq_ok_iff]
  simp only [page, toEntries, Except.ok.injEq, exists_eq_left', clean_request_iff, admitted_page,
    hfilters]

/-- The request asks for rows after a token, in some ordering. -/
structure IsForward (r : Request) (n : ℕ) : Prop where
  first : r.pagination.first = .int n
  used : r.pagination.used = [.first]
  ordered : r.orderNames ≠ []

theorem isForward (hstrict : o.replaces = false)
    (hr : ((page base n .null).validateWith schema o).outcome = .ok r) : IsForward r n := by
  obtain ⟨given, used, hscalars, hconflict, _, _, hpagination⟩ := validateWith_page_iff.1 hr
  rw [clean_scalars_iff hstrict] at hscalars
  have hfirst := Scalars.first_of_read_page hscalars
  obtain ⟨hused, rfl⟩ := Pagination.used_eq_of_conflict hfirst hconflict
  obtain ⟨⟨_, hnames⟩, _, _, hp⟩ := (clean_pagination_iff hstrict hfirst).1 hpagination
  exact ⟨hp ▸ hfirst, hp ▸ hused, hnames⟩

/-- **Valid parameters of another page** have a size within the limits and a token that fits the
ordering. They become the same request, for another part of the result. -/
theorem page_valid_iff (hstrict : o.replaces = false)
    (hr : ((page base n .null).validateWith schema o).outcome = .ok r) {m : ℕ} {after : Value}
    (hafter : after = .null ∨ ∃ t, after = .text t) {q : Request} :
    ((page base m after).validateWith schema o).outcome = .ok q ↔
      o.AdmitsSize m ∧ ∃ c, Fits schema r.orderNames after c ∧ q = r.onward m after c := by
  obtain ⟨given, used, hscalars, hconflict, horder, hfilters, hpagination⟩ :=
    validateWith_page_iff.1 hr
  rw [clean_scalars_iff hstrict] at hscalars
  have hfirst := Scalars.first_of_read_page hscalars
  obtain ⟨hused, rfl⟩ := Pagination.used_eq_of_conflict hfirst hconflict
  obtain ⟨⟨hadmits, hnames⟩, _, _, hp⟩ := (clean_pagination_iff hstrict hfirst).1 hpagination
  have hread := Scalars.read_page hafter hscalars m
  have hpage : { given.pagination with first := .int m, after := after }.used = [.first] := by
    rw [Pagination.used_page hfirst, hused]
  rw [validateWith_page_iff]
  simp only [Request.onward, hp]
  constructor
  · rintro ⟨given', used, hscalars', hconflict', horder', hfilters', hpagination'⟩
    rw [clean_scalars_iff hstrict, hread, Prod.mk.injEq] at hscalars'
    obtain ⟨rfl, _⟩ := hscalars'
    rw [Pagination.conflict_of_used hpage] at hconflict'
    cases hconflict'
    have hsame := horder.unique horder'
    rw [Prod.mk.injEq] at hsame
    obtain ⟨_, hsize, hfits, hq⟩ := (clean_pagination_iff hstrict rfl).1 hpagination'
    have hnames' : r.orderNames = q.orderBy.getD [] := by rw [← hsame.1]; rfl
    refine ⟨hsize, q.cursor, by rw [hnames']; exact hfits, ?_⟩
    show (⟨q.filters, q.orderBy, q.directions, q.pagination, q.cursor⟩ : Request) = _
    rw [hq, ← hfilters.unique hfilters', ← hsame.1, ← hsame.2]
  · rintro ⟨hsize, c, hfits, rfl⟩
    refine ⟨_, some .first, (clean_scalars_iff hstrict).2 hread, Pagination.conflict_of_used hpage,
      horder, hfilters, (clean_pagination_iff hstrict rfl).2 ⟨⟨hadmits, hnames⟩, hsize, hfits, rfl⟩⟩

end Params

namespace Params.IsForward

variable {r : Request} {n : ℕ} (h : Params.IsForward r n) (m : ℕ) (after : Value)
  (c : Option Cursor)
include h

theorem strategy? : (r.onward m after c).strategy? = some .first :=
  Pagination.strategy?_of_used ((Pagination.used_page h.first m after).trans h.used)

theorem isBackward : (r.onward m after c).isBackward = false := by
  rw [Request.isBackward, h.strategy?]
  rfl

theorem direct : (r.onward m after c).direct = r.sort := by
  rw [Request.direct, h.isBackward]
  rfl

theorem token : (r.onward m after c).token = after := by
  rw [Request.token, h.isBackward]
  rfl

theorem size : (r.onward m after c).size = .int m := by
  have hstrategy : (r.onward m after c).pagination.strategy? = some .first := h.strategy? m after c
  rw [Request.size, Pagination.size, hstrategy]
  rfl

end Params.IsForward

end Sieve
