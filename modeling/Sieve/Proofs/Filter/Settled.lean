import Sieve.Proofs.Number.Digits
import Sieve.Proofs.Validation.WellFormed
import Sieve.Proofs.Value.Stored

/-!
# Filters of valid requests are settled

The filters of a valid request, as objects, are drafts of themselves. Their fields have names, their
operators are known and their values are converted already, so checking them again keeps them all,
whether invalid ones would be complained about or left out.

* `Value.render_ne_empty`: what counts as set has a text;
* `Validation.condition_of_isOf`, `Validation.filter_of_becomes`: what becomes of drafts in order;
* `Filter.draft_toValue_group`: the draft of a group as an object;
* `Draft.Becomes.settled`: a filter becomes itself;
* `Validation.filters_settled`: the filters of a valid request, checked again.
-/

namespace Sieve

/-! ### Texts of values -/

theorem Numeral.integerText_ne_nil (i : Int) : integerText i ≠ [] := by
  unfold integerText
  split
  · exact List.cons_ne_nil _ _
  · exact digitsOf_ne_nil _

theorem Binary64.text_ne_nil (x : Binary64) : x.text ≠ [] := by
  cases x with
  | finite negative s e =>
    have hpositional (d : Digits) : d.positional ≠ [] := by
      unfold Digits.positional
      split
      · exact List.cons_ne_nil _ _
      · dsimp only
        split <;> simp
    have hexponential (d : Digits) : d.exponential ≠ [] :=
      List.append_ne_nil_of_right_ne_nil _ (List.cons_ne_nil _ _)
    have hdigits (d : Digits) : d.text ≠ [] := by
      unfold Digits.text
      split
      · exact hpositional d
      · exact hexponential d
    have hunsigned : (if s = 0 then "0.0".toList else (shortest s e).text) ≠ [] := by
      split
      · decide
      · exact hdigits _
    cases negative with
    | true => exact List.cons_ne_nil _ _
    | false => exact hunsigned
  | infinite negative => cases negative <;> decide
  | nan => decide

theorem Decimal.text_ne_nil (d : Decimal) : d.text ≠ [] := by
  cases d with
  | finite negative c e =>
    have hdigits := Numeral.digitsOf_ne_nil c
    have hunsigned : unsignedText c e ≠ [] := by
      simp only [unsignedText]
      split
      · split
        · exact hdigits
        · split <;> simp
      · rw [ne_eq, List.append_eq_nil_iff, not_and_or]
        left
        split
        · simp
        · exact hdigits
    exact List.append_ne_nil_of_right_ne_nil _ hunsigned
  | infinite negative => exact List.append_ne_nil_of_right_ne_nil _ (by decide)
  | nan negative signaling payload =>
    refine List.append_ne_nil_of_left_ne_nil (List.append_ne_nil_of_right_ne_nil _ ?_) _
    cases signaling <;> decide

namespace Value

theorem quotedParts_ne_nil (kind : String) (parts : List ℕ) (o : Option Offset) :
    quotedParts kind parts o ≠ [] :=
  List.append_ne_nil_of_right_ne_nil _ (List.cons_ne_nil _ _)

theorem quotedZone_ne_nil (o : Offset) : quotedZone o ≠ [] := by
  unfold quotedZone
  split
  · decide
  · exact List.append_ne_nil_of_right_ne_nil _ (List.cons_ne_nil _ _)

/-- The text in which the kind of a value can be seen is not empty. -/
theorem quoted_ne_nil (v : Value) : v.quoted ≠ [] := by
  have happend (word text ending : List Char) (hword : word ≠ []) : word ++ text ++ ending ≠ [] :=
    List.append_ne_nil_of_left_ne_nil (List.append_ne_nil_of_left_ne_nil hword _) _
  cases v with
  | null => decide
  | bool b => cases b <;> decide
  | int i => exact Numeral.integerText_ne_nil i
  | float x => exact x.text_ne_nil
  | decimal d => exact happend "Decimal('".toList _ _ (by decide)
  | uuid u => exact happend "UUID('".toList _ _ (by decide)
  | date | time | timestamp => exact quotedParts_ne_nil _ _ _
  | tuple xs =>
    match xs with
    | [] | [_] | _ :: _ :: _ => exact List.cons_ne_nil _ _
  | set xs =>
    cases xs with
    | nil => decide
    | cons x r => exact List.cons_ne_nil _ _
  | zone o => exact quotedZone_ne_nil o
  | object kind as => exact List.append_ne_nil_of_right_ne_nil _ (List.cons_ne_nil _ _)
  | list | map | text | broken | bytes | member | feature => exact List.cons_ne_nil _ _

theorem toText_ne_nil {v : Value} (h : v.truthy = true) : v.toText ≠ [] := by
  cases v with
  | text s => simpa [truthy] using h
  | broken t => simpa [toText] using t.points_ne_nil
  | decimal d => exact d.text_ne_nil
  | date d => exact List.append_ne_nil_of_right_ne_nil _ (List.cons_ne_nil _ _)
  | time t => simp [toText, Iso.timeText, Iso.clockText]
  | timestamp t => simp [toText, Iso.timestampText]
  | uuid u => exact List.append_ne_nil_of_right_ne_nil _ (List.cons_ne_nil _ _)
  | zone o => exact List.append_ne_nil_of_left_ne_nil (by decide) _
  | null | bool | int | float | bytes | list | tuple | set | map | member | object | feature =>
    exact quoted_ne_nil _

/-- What counts as set has a text. -/
theorem render_ne_empty {v : Value} (h : v.truthy = true) : v.render ≠ "" := fun hempty =>
  toText_ne_nil h (by simpa [render] using congrArg String.toList hempty)

end Value

/-! ### Conditions -/

/-- A condition in order is in order as it stands. -/
theorem Condition.IsOf.settled {schema : Option Schema} {field op value : Value} {c : Condition}
    (h : c.IsOf schema field op value) :
    c.IsOf schema (.text c.field) (.text c.op.name) c.value where
  given := by
    have hname : c.field ≠ "" := h.named ▸ Value.render_ne_empty h.given
    simpa [Value.truthy] using hname
  written := Value.isWritable_text _
  named := (Value.render_text _).symm
  filterable s hs := ⟨rfl, (h.filterable s hs).2⟩
  operator := .inr rfl
  coerced := by
    obtain ⟨f, hf, hop, hvalue⟩ := h.coerced
    exact ⟨f, hf, hop, Operator.coerce_coerced hvalue⟩

namespace Validation

open Checking

variable {schema : Option Schema} {o : Options} {path : String}

theorem conditionField_of {field : Value} {f : Field} (hgiven : field.truthy = true)
    (hadmitted : ∀ s ∈ schema, field.isBroken = false ∧ s.isFilterable field.render = true)
    (hf : resolveField schema field.render = .ok f) : conditionField schema path field = .ok f := by
  have hunrefused : (schema.any fun s => field.isBroken || !s.isFilterable field.render) = false := by
    cases schema with
    | none => rfl
    | some s => simp [hadmitted s rfl]
  simp [conditionField, hgiven, hunrefused, hf]

theorem conditionOperator_of {op : Value} {operator : Operator} (h : operator.IsOf op) :
    conditionOperator path op = .ok operator := by
  rcases h with ⟨rfl, rfl⟩ | rfl
  · rfl
  · simp [conditionOperator]

/-- A condition in order is not rejected. -/
theorem condition_of_isOf {field op value : Value} {c : Condition}
    (h : c.IsOf schema field op value) : condition schema path field op value = .ok c := by
  obtain ⟨f, hf, hop, hvalue⟩ := h.coerced
  have hfield : conditionField schema path field = .ok f :=
    conditionField_of h.given (h.named ▸ h.filterable) (h.named ▸ hf)
  have hconverted : conditionValue path f c.op value = .ok c.value := by
    simp [conditionValue, hop, hvalue]
  simp only [condition, hfield, conditionOperator_of h.operator, hconverted, Outcome.ok_bind,
    ← h.named]
  rfl

theorem groupKind_of_isOf {type : Value} {kind : GroupKind} (h : kind.IsOf type) :
    groupKind? type = some kind := by
  cases kind with
  | all =>
    rcases h with hblank | rfl
    · simp [groupKind?, hblank]
    · simp [groupKind?]
  | any =>
    cases h
    simp [groupKind?, Value.truthy]
  | other label => cases h

/-! ### Filters -/

mutual

/-- A draft that becomes a filter, with nothing left out, is kept as that filter. -/
theorem filter_of_becomes {path : String} {d : Draft} {f : Filter} (h : d.Becomes schema false f) :
    filter schema o path d = pure (some f) := by
  cases h with
  | condition h =>
    rw [filter, named_eq_ok_iff.2 fun _ => h.written, condition_of_isOf h]
    rfl
  | @group _ _ kind fs hkind hfs henough =>
    rw [filter, groupKind_of_isOf hkind]
    dsimp only
    rw [filterEach_of_eachBecome hfs, pure_bind_eq, if_pos henough]

theorem filterEach_of_eachBecome {path : String} {place : ℕ} {ds : List Draft} {fs : List Filter}
    (h : Draft.EachBecome schema false ds fs) : filterEach schema o path place ds = pure fs := by
  cases h with
  | nil => rw [filterEach]
  | keep h hrest =>
    rw [filterEach, filter_of_becomes h, filterEach_of_eachBecome hrest]
    rfl
  | skip hskips => cases hskips

end

end Validation

/-! ### Objects -/

/-- The draft of a group as an object. -/
theorem Filter.draft_toValue_group (kind : GroupKind) (fs : List Filter) :
    (group kind fs).toValue.draft = .group kind.label ((toValues fs).map Value.draft) := by
  simp [toValue, groupValue, groupKind, Value.draft, Value.attributeDrafts?, Value.drafts,
    Draft.ofParts, Value.attributeOf]

theorem GroupKind.IsOf.settled {type : Value} {kind : GroupKind} (h : kind.IsOf type) :
    kind.IsOf kind.label := by
  cases kind with
  | all => exact .inr rfl
  | any => rfl
  | other label => cases h

mutual

/-- **What a draft became becomes itself**, whether children of groups were left out before or not. -/
theorem Draft.Becomes.settled {schema : Option Schema} {skips : Bool} {d : Draft} {f : Filter}
    (h : d.Becomes schema skips f) : f.toValue.draft.Becomes schema false f := by
  cases h with
  | condition h =>
    rw [Value.draft_condition]
    exact .condition h.settled
  | group hkind hfs henough =>
    rw [Filter.draft_toValue_group]
    exact .group hkind.settled hfs.settled henough

theorem Draft.EachBecome.settled {schema : Option Schema} {skips : Bool} {ds : List Draft}
    {fs : List Filter} (h : Draft.EachBecome schema skips ds fs) :
    Draft.EachBecome schema false ((Filter.toValues fs).map Value.draft) fs := by
  cases h with
  | nil => exact .nil
  | keep h hrest => exact .keep h.settled hrest.settled
  | skip _ hrest => exact hrest.settled

end

namespace Validation

open Checking

variable {schema : Option Schema} {o : Options}

/-- The filters of a valid request are kept when they are checked again. -/
theorem filters_settled {v : Value} {fs : List Filter} (h : Clean (filters schema o v) fs) :
    filters schema o (.list (Filter.toValues fs)) = pure fs := by
  have hbecome : Draft.EachBecome schema false ((Filter.toValues fs).map Value.draft) fs := by
    rcases filters_become h with ⟨rfl, _⟩ | ⟨ds, _, hfs⟩
    · exact .nil
    · exact hfs.settled
  simp only [filters, Value.isNull, Value.drafts_list]
  exact filterEach_of_eachBecome hbecome

theorem givenFilters_settled {es es' : List (Value × Value)} {fs : List Filter}
    (h : Clean (givenFilters schema o es) fs)
    (hes' : Value.lookup? "filters" es' = some (.list (Filter.toValues fs))) :
    givenFilters schema o es' = pure fs := by
  unfold givenFilters at h ⊢
  split at h
  · next hfilters =>
    rw [if_pos hfilters, hes']
    exact filters_settled h
  · next hfilters =>
    cases clean_pure_iff.1 h
    rw [if_neg hfilters]

end Validation

end Sieve
