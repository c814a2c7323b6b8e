import Sieve.Proofs.Validation.Checking

/-!
# What filters become

A check of filters without a complaint leaves a tree that follows the tree of the drafts. Every condition
and every group that is kept was in order on its own. Drafts are left out only where options say that
invalid parameters are replaced.

* `Operator.IsOf`, `GroupKind.IsOf`, `Condition.IsOf`: operators, kinds and conditions as given;
* `Draft.Becomes`, `Draft.EachBecome`: the filters that drafts become, possibly with some left out;
* `Validation.filter_becomes`, `Validation.filters_become`: what a clean check gives.
-/

namespace Sieve

/-- The operator is the one that a value names; null stands for equality. -/
def Operator.IsOf (op : Value) (operator : Operator) : Prop :=
  op = .null ∧ operator = .eq ∨ op = .text operator.name

/-- The kind is the one that a value names; without a type it is `and`. -/
def GroupKind.IsOf (type : Value) : GroupKind → Prop
  | .all => type.truthy = false ∨ type = .text "and"
  | .any => type = .text "or"
  | .other _ => False

/-- The condition of a field, an operator and a value as given: the field can be written and may be
filtered, the operator is one of the field, and the value fits both. -/
structure Condition.IsOf (schema : Option Schema) (field op value : Value) (c : Condition) :
    Prop where
  given : field.truthy = true
  written : field.isWritable = true
  named : c.field = field.render
  /-- No field of a schema has a name with broken characters. -/
  filterable : ∀ s ∈ schema, field.isBroken = false ∧ s.isFilterable c.field = true
  operator : c.op.IsOf op
  coerced : ∃ f, resolveField schema c.field = .ok f ∧ c.op ∈ f.operators ∧
    c.op.coerce f.type value = .ok c.value

theorem Operator.name_of_ofName? {s : String} {op : Operator} (h : ofName? s = some op) :
    op.name = s := by
  unfold ofName? at h
  simpa using List.find?_some h

mutual

/-- The filter is what the draft becomes. Children of groups may be left out if `skips` says so. -/
inductive Draft.Becomes (schema : Option Schema) (skips : Bool) : Draft → Filter → Prop
  | condition {field op value : Value} {c : Condition} (h : c.IsOf schema field op value) :
      Becomes schema skips (.condition field op value) (.condition c)
  | group {type : Value} {children : List Draft} {kind : GroupKind} {fs : List Filter}
      (hkind : kind.IsOf type) (hfs : EachBecome schema skips children fs)
      (henough : Validation.enough fs = true) :
      Becomes schema skips (.group type children) (.group kind fs)

/-- The filters are what the drafts become, in order. -/
inductive Draft.EachBecome (schema : Option Schema) (skips : Bool) :
    List Draft → List Filter → Prop
  | nil : EachBecome schema skips [] []
  | keep {d : Draft} {f : Filter} {ds : List Draft} {fs : List Filter}
      (h : Becomes schema skips d f) (hrest : EachBecome schema skips ds fs) :
      EachBecome schema skips (d :: ds) (f :: fs)
  | skip {d : Draft} {ds : List Draft} {fs : List Filter} (hskips : skips = true)
      (hrest : EachBecome schema skips ds fs) : EachBecome schema skips (d :: ds) fs

end

namespace Validation

open Checking

variable {schema : Option Schema} {o : Options} {path : String}

/-! ### Conditions -/

theorem conditionField_ok {field : Value} {f : Field}
    (h : conditionField schema path field = .ok f) :
    field.truthy = true ∧
      (∀ s ∈ schema, field.isBroken = false ∧ s.isFilterable field.render = true) ∧
      resolveField schema field.render = .ok f := by
  unfold conditionField at h
  split at h
  · cases h
  · next htruthy =>
    dsimp only at h
    split at h
    · cases h
    · next hadmitted =>
      refine ⟨by simpa using htruthy, ?_, ?_⟩
      · rintro s rfl
        simpa using hadmitted
      · split at h
        · next hf =>
          cases h
          exact hf
        · cases h

theorem conditionOperator_ok {op : Value} {operator : Operator}
    (h : conditionOperator path op = .ok operator) : operator.IsOf op := by
  unfold conditionOperator at h
  split at h
  · cases h
    exact .inl ⟨rfl, rfl⟩
  · next s =>
    split at h
    · next hfound =>
      cases h
      exact .inr (congrArg Value.text (Operator.name_of_ofName? hfound).symm)
    · cases h
  · cases h

theorem conditionValue_ok {f : Field} {operator : Operator} {v w : Value}
    (h : conditionValue path f operator v = .ok w) :
    operator ∈ f.operators ∧ operator.coerce f.type v = .ok w := by
  unfold conditionValue at h
  split at h
  · next hmem =>
    refine ⟨by simpa using hmem, ?_⟩
    split at h
    · next hw =>
      cases h
      exact hw
    · cases h
  · cases h

/-- A condition that is not rejected was in order, if its field can be written. -/
theorem condition_isOf {field op value : Value} {c : Condition} (hnamed : named field = .ok ())
    (h : condition schema path field op value = .ok c) : c.IsOf schema field op value := by
  unfold condition at h
  split at h
  · next f operator hf hop =>
    obtain ⟨v, hv, h⟩ := Outcome.bind_eq_ok_iff.1 h
    cases h
    obtain ⟨hgiven, hadmitted, hfield⟩ := conditionField_ok hf
    obtain ⟨hmem, hcoerce⟩ := conditionValue_ok hv
    exact ⟨hgiven, named_eq_ok_iff.1 hnamed hgiven, rfl, hadmitted, conditionOperator_ok hop, f,
      hfield, hmem, hcoerce⟩
  all_goals cases h

theorem conditionField_error {field : Value} {m : Messages}
    (h : conditionField schema path field = .error m) : m ≠ [] := by
  unfold conditionField at h
  dsimp only at h
  split at h
  · cases h
    simp
  · split at h
    · cases h
      simp
    · split at h <;> cases h
      simp

theorem conditionOperator_error {op : Value} {m : Messages}
    (h : conditionOperator path op = .error m) : m ≠ [] := by
  unfold conditionOperator at h
  split at h
  · cases h
  · split at h <;> cases h
    simp
  · cases h
    simp

theorem conditionValue_error {f : Field} {operator : Operator} {v : Value} {m : Messages}
    (h : conditionValue path f operator v = .error m) : m ≠ [] := by
  unfold conditionValue at h
  split at h
  · split at h <;> cases h
    simp
  · cases h
    simp

/-- A condition is never rejected without a message. -/
theorem condition_error {field op value : Value} {m : Messages}
    (h : condition schema path field op value = .error m) : m ≠ [] := by
  unfold condition at h
  split at h
  · next f operator _ _ =>
    cases hv : conditionValue path f operator value with
    | ok v =>
      rw [hv] at h
      cases h
    | error n =>
      rw [hv] at h
      cases h
      exact conditionValue_error hv
  · next hf _ =>
    cases h
    exact fun happend => conditionField_error hf (List.append_eq_nil_iff.1 happend).1
  · next hf _ =>
    cases h
    exact conditionField_error hf
  · next _ hop =>
    cases h
    exact conditionOperator_error hop

theorem groupKind_isOf {type : Value} {kind : GroupKind} (h : groupKind? type = some kind) :
    kind.IsOf type := by
  unfold groupKind? at h
  split at h
  · next hblank =>
    cases h
    exact .inl (by simpa using hblank)
  · split at h
    · next hand =>
      cases h
      exact .inr hand
    · split at h
      · next hor =>
        cases h
        exact hor
      · cases h

/-! ### Rejections -/

theorem not_clean_complainAll {messages : Messages} (hm : messages ≠ []) {u : Unit} :
    ¬Clean (complainAll messages) u := by
  obtain ⟨e, r, rfl⟩ := List.exists_cons_of_ne_nil hm
  intro h
  have hnil : (e :: r).foldl (fun (m : Messages) e => m.add e.1 e.2) [] = [] :=
    congrArg Prod.snd (Except.ok.inj h)
  exact (adds_complainAll r).keeps _ _ rfl (Messages.add_ne_nil _ _ _) hnil

/-- A rejection without a complaint leaves the filter out, as options say. -/
theorem clean_reject {messages : Messages} (hm : messages ≠ []) {r : Option Filter}
    (h : Clean (reject o path messages) r) : r = none ∧ o.replaces = true := by
  unfold reject at h
  split at h
  · next hreplaces =>
    exact ⟨(clean_report_bind_iff.1 h).symm, hreplaces⟩
  · obtain ⟨_, h, _⟩ := (clean_bind_iff fun _ => adds_pure _).1 h
    exact absurd h (not_clean_complainAll hm)

/-! ### Filters -/

/-- What is left of a draft: the filter that it becomes, or nothing if invalid drafts are left
out. -/
def Leaves (schema : Option Schema) (skips : Bool) (d : Draft) (r : Option Filter) : Prop :=
  match r with
  | some f => d.Becomes schema skips f
  | none => skips = true

theorem leaves_of_reject {messages : Messages} (hm : messages ≠ []) {d : Draft} {r : Option Filter}
    (h : Clean (reject o path messages) r) : Leaves schema o.replaces d r := by
  obtain ⟨rfl, hreplaces⟩ := clean_reject hm h
  exact hreplaces

mutual

/-- **A clean check keeps a draft as the filter that it becomes**, or leaves it out where options say
so. -/
theorem filter_becomes {path : String} {d : Draft} {r : Option Filter}
    (h : Clean (filter schema o path d) r) : Leaves schema o.replaces d r := by
  match d with
  | .unreadable =>
    -- What is no filter at all is complained about in either mode.
    exact absurd h not_clean_complain_bind
  | .condition field op value =>
    unfold filter at h
    obtain ⟨_, hnamed, h⟩ := clean_lift_bind_iff.1 h
    split at h
    · next c hc =>
      cases h
      exact .condition (condition_isOf hnamed hc)
    · next m hm => exact leaves_of_reject (condition_error hm) h
  | .group type children =>
    unfold filter at h
    split at h
    · exact leaves_of_reject (by simp) h
    · next kind hkind =>
      obtain ⟨fs, hfs, h⟩ := (clean_bind_iff fun fs => by
        split
        · exact adds_pure _
        · exact adds_reject _ _).1 h
      split at h
      · next henough =>
        cases h
        exact .group (groupKind_isOf hkind) (filterEach_become hfs) henough
      · exact leaves_of_reject (by simp) h
  | .unbounded type =>
    unfold filter at h
    split at h
    · exact leaves_of_reject (by simp) h
    · exact absurd h not_clean_fail

theorem filterEach_become {path : String} {place : Nat} {ds : List Draft} {fs : List Filter}
    (h : Clean (filterEach schema o path place ds) fs) :
    Draft.EachBecome schema o.replaces ds fs := by
  match ds with
  | [] =>
    cases h
    exact .nil
  | d :: ds =>
    unfold filterEach at h
    obtain ⟨f, hf, h⟩ := (clean_bind_iff fun _ =>
      adds_bind (adds_filterEach _ _ _) fun _ => adds_pure _).1 h
    obtain ⟨gs, hgs, h⟩ := (clean_bind_iff fun _ => adds_pure _).1 h
    cases h
    cases f with
    | none => exact .skip (filter_becomes hf) (filterEach_become hgs)
    | some f => exact .keep (filter_becomes hf) (filterEach_become hgs)

end

/-- The filters of a request are what drafts become. There are none where the parameter is null, or no
list and left out. -/
theorem filters_become {v : Value} {fs : List Filter} (h : Clean (filters schema o v) fs) :
    (fs = [] ∧ (v = .null ∨ o.replaces = true)) ∨
      ∃ ds, v.drafts = .ok ds ∧ Draft.EachBecome schema o.replaces ds fs := by
  unfold filters at h
  split at h
  · next hnull =>
    cases h
    exact .inl ⟨rfl, .inl (Value.isNull_iff.1 hnull)⟩
  · split at h
    · next ds hds => exact .inr ⟨ds, hds, filterEach_become h⟩
    · exact absurd h not_clean_fail
    · dsimp only at h
      split at h
      · next hreplaces =>
        cases clean_report_bind_iff.1 h
        exact .inl ⟨rfl, .inr hreplaces⟩
      · exact absurd h not_clean_complain_bind

end Validation

end Sieve
