import Sieve.Filter

/-!
# Edits of a list of filters

An edit puts a condition in place of the first one on its field, or at the end. The other conditions on the
field go, and what is not a condition on the field stays as it is: conditions on other fields, and groups,
also those that have the field inside.

* `Filter.Placed` says where an edit puts a condition;
* `Filter.Placed.filter_eq`: what else is in the list stays, in its order;
* `Filter.edits_lawful`: how edits and lookups go together.
-/

namespace Sieve

namespace Filter

variable {field : String} {fs gs : List Filter} {new : Condition} {p : Filter → Bool}

/-! ### Dropping -/

theorem filter_drop (hp : ∀ f, isOn field f = true → p f = false) (fs : List Filter) :
    (drop field fs).filter p = fs.filter p := by
  unfold drop
  rw [List.filter_filter]
  refine List.filter_congr fun f _ => ?_
  cases hf : isOn field f with
  | false => simp
  | true => simp [hp f hf]

theorem dropAll_cons (name : String) (names : List String) (fs : List Filter) :
    dropAll (name :: names) fs = dropAll names (drop name fs) := by
  unfold dropAll drop
  rw [List.filter_filter]
  refine List.filter_congr fun f _ => ?_
  rw [List.any_cons, Bool.not_or, Bool.and_comm]

/-- Fields are dropped one after another. -/
theorem dropAll_eq_foldl (names : List String) (fs : List Filter) :
    dropAll names fs = names.foldl (fun kept name => drop name kept) fs := by
  induction names generalizing fs with
  | nil => simp [dropAll]
  | cons name names ih => rw [dropAll_cons, ih, List.foldl_cons]

/-- Which fields are dropped matters, but not in which order or how often. -/
theorem dropAll_congr {names order : List String} (h : ∀ name, name ∈ order ↔ name ∈ names)
    (fs : List Filter) : dropAll names fs = dropAll order fs := by
  refine List.filter_congr fun f _ => ?_
  rw [Bool.eq_iff_iff]
  simp [h]

/-! ### Placing -/

/-- Where a condition is put: in place of the first one on its field, or at the end. -/
inductive Placed (new : Condition) : List Filter → List Filter → Prop
  | replaced {before after : List Filter} {old : Condition}
      (hbefore : ∀ f ∈ before, isOn new.field f = false) (hold : old.field = new.field) :
      Placed new (before ++ condition old :: after)
        (before ++ condition new :: drop new.field after)
  | appended {fs : List Filter} (hfresh : ∀ f ∈ fs, isOn new.field f = false) :
      Placed new fs (fs ++ [condition new])

/-- What is in front of the place stays. -/
theorem Placed.cons {f : Filter} (hf : isOn new.field f = false) (h : Placed new fs gs) :
    Placed new (f :: fs) (f :: gs) := by
  cases h with
  | replaced hbefore hold => exact .replaced (List.forall_mem_cons.2 ⟨hf, hbefore⟩) hold
  | appended hfresh => exact .appended (List.forall_mem_cons.2 ⟨hf, hfresh⟩)

theorem exists_of_isOn {f : Filter} (hf : isOn field f = true) :
    ∃ c, f = condition c ∧ c.field = field := by
  cases f with
  | condition c => exact ⟨c, rfl, by simpa using hf⟩
  | group kind children => cases hf

theorem placed_put (new : Condition) (fs : List Filter) : Placed new fs (put new fs) := by
  -- the induction goes as far as to the first condition on the field
  induction fs with
  | nil => exact .appended (List.forall_mem_nil _)
  | cons f fs ih =>
    cases hf : isOn new.field f with
    | false => simpa [put, hf] using ih.cons hf
    | true =>
      obtain ⟨old, rfl, hold⟩ := exists_of_isOn hf
      rw [put, if_pos hf]
      exact .replaced (List.forall_mem_nil _) hold

/-- **What else is in the list stays, in its order.** -/
theorem Placed.filter_eq (h : Placed new fs gs) (hp : ∀ f, isOn new.field f = true → p f = false) :
    gs.filter p = fs.filter p := by
  -- neither the new condition nor those that it replaces pass
  have hnew : p (condition new) = false := hp _ (by simp)
  cases h with
  | @replaced before after old hbefore hold =>
    have hgone : p (condition old) = false := hp _ (by simp [hold])
    simp [hnew, hgone, filter_drop hp]
  | appended hfresh => simp [hnew]

/-- **The condition is the only one on its field.** -/
theorem Placed.filter_isOn (h : Placed new fs gs) : gs.filter (isOn new.field) = [condition new] := by
  have hnone : ∀ {fs : List Filter}, (∀ f ∈ fs, isOn new.field f = false) →
      fs.filter (isOn new.field) = [] :=
    fun hfs => List.filter_eq_nil_iff.2 fun f hf => by simp [hfs f hf]
  cases h with
  | @replaced before after old hbefore hold =>
    have hafter : ∀ f ∈ drop new.field after, isOn new.field f = false := by simp [drop]
    simp [hnone hbefore, hnone hafter]
  | appended hfresh => simp [hnone hfresh]

/-! ### Looking up -/

theorem onField_put_of_ne (h : field ≠ new.field) (fs : List Filter) :
    onField field (put new fs) = onField field fs := by
  unfold onField
  rw [(placed_put new fs).filter_eq]
  intro f hf
  obtain ⟨c, rfl, hc⟩ := exists_of_isOn hf
  simp [hc, h.symm]

/-- **Edits and lookups of a list of filters.** The condition that is put stands in place of the first one on
its field, or at the end, and is the only one on its field. What is left without the conditions on the field
is left after the edit, in its order, and the conditions on another field are found as before. A second edit
of the field is as if there was no first one. To drop some fields is to drop them one after another, in any
order. -/
theorem edits_lawful (new : Condition) (fs : List Filter) :
    Placed new fs (put new fs) ∧
    (put new fs).filter (isOn new.field) = [condition new] ∧
    onField new.field (put new fs) = [new] ∧ first? new.field (put new fs) = some new ∧
    drop new.field (put new fs) = drop new.field fs ∧
    (∀ field, field ≠ new.field → onField field (put new fs) = onField field fs ∧
      first? field (put new fs) = first? field fs) ∧
    (∀ old : Condition, old.field = new.field → put new (put old fs) = put new fs) ∧
    ∀ names order : List String, (∀ name, name ∈ order ↔ name ∈ names) →
      dropAll names fs = order.foldl (fun kept name => drop name kept) fs := by
  have hplaced := placed_put new fs
  have hself := onField_put_self new fs
  refine ⟨hplaced, hplaced.filter_isOn, hself, ?_, ?_, fun field hfield => ?_,
    fun old hold => put_put new old hold fs, fun names order hsame => ?_⟩
  · rw [first?, hself, List.head?_cons]
  · exact hplaced.filter_eq fun f hf => by rw [hf, Bool.not_true]
  · have hother := onField_put_of_ne hfield fs
    exact ⟨hother, by rw [first?, first?, hother]⟩
  · rw [dropAll_congr hsame, dropAll_eq_foldl]

/-- Two conditions on the age, behind a group of one and around one on the name. -/
def aged : List Filter :=
  [.group .any [.condition ⟨"age", .lt, .int 3⟩, .condition ⟨"name", .eq, .text "Rex"⟩],
    .condition ⟨"age", .gt, .int 1⟩, .condition ⟨"name", .ne, .text "Tom"⟩,
    .condition ⟨"age", .le, .int 9⟩]

/-- The new condition on the age takes the place of the first one, and the group stays as it is. -/
theorem edits_lawful_aged :
    put ⟨"age", .eq, .int 5⟩ aged =
      [.group .any [.condition ⟨"age", .lt, .int 3⟩, .condition ⟨"name", .eq, .text "Rex"⟩],
        .condition ⟨"age", .eq, .int 5⟩, .condition ⟨"name", .ne, .text "Tom"⟩] ∧
    onField "name" (put ⟨"age", .eq, .int 5⟩ aged) = [⟨"name", .ne, .text "Tom"⟩] ∧
    put ⟨"age", .eq, .int 5⟩ (put ⟨"age", .ge, .int 4⟩ aged) = put ⟨"age", .eq, .int 5⟩ aged ∧
    dropAll ["age", "name"] aged = drop "age" (drop "name" aged) := by
  obtain ⟨-, -, -, -, -, hother, hagain, hdrop⟩ := edits_lawful ⟨"age", .eq, .int 5⟩ aged
  refine ⟨rfl, (hother "name" (by decide)).1, hagain ⟨"age", .ge, .int 4⟩ rfl, ?_⟩
  exact hdrop ["age", "name"] ["name", "age"] fun name => by simp [or_comm]

end Filter

end Sieve
