import Sieve.Proofs.Evaluation.Operators
import Sieve.Proofs.Keyset.Nulls
import Sieve.Proofs.Plan.Compiles

/-!
# Answers to filters and to the boundaries of cursors

A filter is answered on a row if each of its conditions is, at any depth of groups, and the boundary of a
cursor if each of its values can be compared with the row. Rows are taken to hold values of the types of
their fields.

* `Schema.Types`: the row has null or a value of the type in every column;
* `Condition.Clashes`, `Filter.select_answered_iff`: filters are answered unless a condition clashes;
* `Cursor.Clashes`, `Cursor.boundary_answered_iff`: boundaries are answered unless a value of the cursor
  has no order.
-/

namespace Sieve

open Outcome Traced

/-- Every field of the schema is a column. -/
def Schema.HasColumns (s : Schema) : Prop :=
  ∀ f ∈ s.fields, f.IsColumn

/-- In every field of the schema, the row has null or a value of the type of the field. -/
def Schema.Types (s : Schema) (aliases : Aliases) (row : Value) : Prop :=
  ∀ f ∈ s.fields, ∃ r ∈ f.ref?, ∃ x, r.read aliases row = .ok x ∧ x.NullOr f.type.Holds

/-- The row has a value in the column, which is not null. -/
def Schema.HasValue (s : Schema) (aliases : Aliases) (row : Value) (name : String) (x : Value) : Prop :=
  columnValue (some s) aliases name row = .ok x ∧ x ≠ .null

/-- The operator of the condition has no answer for the value of the row. -/
def Condition.Clashes (s : Schema) (aliases : Aliases) (row : Value) (c : Condition) : Prop :=
  c.ignored = false ∧ ∃ x, s.HasValue aliases row c.field x ∧ c.op.Clashes x c.value

/-- The cursor has a value without an order in a column where the row has a value too. -/
def Cursor.Clashes (s : Schema) (aliases : Aliases) (row : Value) (names : List String) (c : Cursor) :
    Prop :=
  ∃ n ∈ names, ∃ v x, c.bound? n = some v ∧ v.Unordered ∧ s.HasValue aliases row n x

section

variable {s : Schema} {aliases : Aliases} {row x : Value} {name : String} {f : Field} {r : FieldRef}

theorem Schema.HasColumns.isColumn (hs : s.HasColumns) (hf : resolveField (some s) name = .ok f) :
    f.IsColumn :=
  hs f (List.mem_of_find?_eq_some (Schema.resolve_eq_ok_iff.1 hf))

/-- Where a field is found in a row, and what is there. -/
theorem Schema.Types.found (h : s.Types aliases row) (hf : resolveField (some s) name = .ok f) :
    ∃ r x, f.ref? = some r ∧ r.read aliases row = .ok x ∧ x.NullOr f.type.Holds ∧
      ∀ y, s.HasValue aliases row name y ↔ y = x ∧ x ≠ .null := by
  have hmem : f ∈ s.fields := List.mem_of_find?_eq_some (Schema.resolve_eq_ok_iff.1 hf)
  obtain ⟨r, hr, x, hx, hheld⟩ := h f hmem
  refine ⟨r, x, hr, hx, hheld, fun y => ?_⟩
  rw [Schema.HasValue, Cursor.columnValue_eq hf hr, hx, Except.ok.injEq]
  constructor <;> rintro ⟨rfl, h⟩ <;> exact ⟨rfl, h⟩

end

/-! ### Filters -/

namespace Filter

variable {s : Schema} {aliases : Aliases} {row : Value} {t : Setting} {c : Condition}

/-- A condition on a column is the predicate of its operator there. -/
theorem selectCondition_column {f : Field} {r : FieldRef} (ht : t.schema = some s)
    (hgiven : c.ignored = false) (hf : resolveField (some s) c.field = .ok f) (hcolumn : f.IsColumn)
    (hr : f.ref? = some r) : (selectCondition t c).outcome = c.op.onRef r f.type c.value := by
  have hselect : (selectCondition t c).outcome = (Field.selectFound c.op c.value f).outcome := by
    rw [selectCondition, if_neg (by simp [hgiven]), bind_outcome, lift_outcome, ht, hf, ok_bind]
    cases f with
    | plain | join => rfl
    | isAlias | composite | custom => exact absurd hcolumn (by simp [Field.IsColumn, Field.kind])
  rw [hselect, Field.selectFound, bind_outcome, lift_outcome, Field.ref_eq_ok_iff.2 hr, ok_bind,
    lift_outcome]

/-- **A condition is answered unless it clashes with the row.** -/
theorem selectCondition_answered_iff (ht : t.schema = some s) (hs : s.HasColumns)
    (hrow : s.Types aliases row)
    {field op value : Value} (hc : c.IsOf (some s) field op value) {p : Predicate}
    (hp : (selectCondition t c).outcome = .ok p) :
    p.Proper ∧ (p.Answered aliases row ↔ ¬c.Clashes s aliases row) := by
  by_cases hignored : c.ignored = true
  · rw [selectCondition, if_pos hignored] at hp
    cases hp
    exact ⟨Predicate.proper_const true, iff_of_true (Predicate.answered_const true) fun h => by
      cases h.1.symm.trans hignored⟩
  · have hgiven : c.ignored = false := Bool.eq_false_iff.2 hignored
    obtain ⟨f, hf, _, hcoerce⟩ := hc.coerced
    obtain ⟨r, x, hr, hx, hheld, hvalue⟩ := hrow.found hf
    rw [selectCondition_column ht hgiven hf (hs.isColumn hf) hr] at hp
    obtain ⟨hproper, hiff⟩ := Operator.onRef_answered_iff hp (Operator.coerce_coerced hcoerce) hgiven
      hx hheld
    refine ⟨hproper, hiff.trans ?_⟩
    simp only [Condition.Clashes, hgiven, hvalue, true_and, and_assoc, exists_eq_left, not_and,
      imp_iff_not_or, not_not]

mutual

/-- A filter is answered if and only if each of its conditions is in order with the row. -/
theorem select_answered_iff {P : Condition → Prop} {f : Filter} {p : Predicate}
    (h : ∀ c ∈ f.conditions, ∀ q, (selectCondition t c).outcome = .ok q →
      q.Proper ∧ (q.Answered aliases row ↔ P c))
    (hp : (select t f).outcome = .ok p) :
    p.Proper ∧ (p.Answered aliases row ↔ ∀ c ∈ f.conditions, P c) := by
  match f with
  | condition c => simpa [conditions] using h c (by simp [conditions]) p hp
  | group k fs =>
    unfold select at hp
    rw [bind_outcome] at hp
    obtain ⟨ps, hps, hp⟩ := bind_eq_ok_iff.1 hp
    obtain ⟨hproper, hiff⟩ := selectEach_answered_iff h hps
    cases hp
    split
    · exact ⟨nofun, (Predicate.answered_all_iff hproper).trans hiff⟩
    · exact ⟨nofun, (Predicate.answered_any_iff hproper).trans hiff⟩

theorem selectEach_answered_iff {P : Condition → Prop} {fs : List Filter} {ps : List Predicate}
    (h : ∀ c ∈ conditionsOf fs, ∀ q, (selectCondition t c).outcome = .ok q →
      q.Proper ∧ (q.Answered aliases row ↔ P c))
    (hps : (selectEach t fs).outcome = .ok ps) :
    (∀ p ∈ ps, p.Proper) ∧ ((∀ p ∈ ps, p.Answered aliases row) ↔ ∀ c ∈ conditionsOf fs, P c) := by
  match fs with
  | [] =>
    cases hps
    exact ⟨nofun, iff_of_true nofun nofun⟩
  | f :: fs =>
    unfold selectEach at hps
    rw [bind_outcome] at hps
    obtain ⟨p, hp, hps⟩ := bind_eq_ok_iff.1 hps
    rw [bind_outcome] at hps
    obtain ⟨qs, hqs, hps⟩ := bind_eq_ok_iff.1 hps
    cases hps
    obtain ⟨hproper, hiff⟩ := select_answered_iff (fun c hc => h c (List.mem_append_left _ hc)) hp
    obtain ⟨hpropers, hiffs⟩ :=
      selectEach_answered_iff (fun c hc => h c (List.mem_append_right _ hc)) hqs
    refine ⟨List.forall_mem_cons.2 ⟨hproper, hpropers⟩, ?_⟩
    rw [List.forall_mem_cons, hiff, hiffs, conditionsOf, List.forall_mem_append]

end

/-- **Filters are answered unless a condition clashes with the row.** -/
theorem selectAll_answered_iff {fs : List Filter} {p : Predicate} (ht : t.schema = some s)
    (hs : s.HasColumns) (hrow : s.Types aliases row)
    (hfs : ∀ c ∈ conditionsOf fs, ∃ field op value, c.IsOf (some s) field op value)
    (hp : (selectAll t fs).outcome = .ok p) :
    p.Proper ∧ (p.Answered aliases row ↔ ∀ c ∈ conditionsOf fs, ¬c.Clashes s aliases row) := by
  unfold selectAll at hp
  rw [bind_outcome] at hp
  obtain ⟨ps, hps, hp⟩ := bind_eq_ok_iff.1 hp
  cases hp
  obtain ⟨hproper, hiff⟩ := selectEach_answered_iff (fun c hc q hq =>
    have ⟨_, _, _, hisOf⟩ := hfs c hc
    selectCondition_answered_iff ht hs hrow hisOf hq) hps
  exact ⟨nofun, (Predicate.answered_all_iff hproper).trans hiff⟩

end Filter

/-! ### Boundaries -/

namespace Cursor

variable {s : Schema} {aliases : Aliases} {row x v : Value} {c : Cursor} {order : SortOrder}
  {r : FieldRef} {t : StorageType} {b : Predicate}

/-- The values of the cursor are of the types of their fields. -/
def Stored (s : Schema) (c : Cursor) : Prop :=
  ∀ n f v, resolveField (some s) n = .ok f → f.IsColumn → c.bound? n = some v → f.type.Stores v

/-- Each comparison of a boundary is answered unless the value of the cursor has no order. -/
theorem compare_answered_iff {comparison : Comparison} {d : Direction}
    (hcomparison : comparison = d.strictly ∨ comparison = d.atLeast)
    (hx : r.read aliases row = .ok x) (hheld : x.NullOr t.Holds) (hv : t.Stores v) :
    (Predicate.compare r comparison v).Answered aliases row ↔ x = .null ∨ ¬v.Unordered := by
  rw [Predicate.answered_compare_iff hx]
  refine hheld.or_iff fun hheld => ?_
  have hsides := fun orEqual => hheld.precedes_iff hv orEqual
  have hothers := fun orEqual => hheld.preceded_iff hv orEqual
  rcases hcomparison with rfl | rfl
  · unfold Direction.strictly
    split
    · exact hothers false
    · exact hsides false
  · unfold Direction.atLeast
    split
    · exact hothers true
    · exact hsides true

/-- What a value of the cursor adds to a boundary. -/
theorem bound_answered_iff {d : Direction} {inner : Option Predicate}
    (hx : r.read aliases row = .ok x) (hheld : x.NullOr t.Holds) (hv : t.Stores v)
    (hinner : ∀ q ∈ inner, q.Proper) :
    (bound r d v inner).Answered aliases row ↔
      (x = .null ∨ ¬v.Unordered) ∧ ∀ q ∈ inner, q.Answered aliases row := by
  have hstrictly := compare_answered_iff (.inl rfl) hx hheld hv (d := d)
  have hatLeast := compare_answered_iff (.inr rfl) hx hheld hv (d := d)
  cases inner with
  | none => simpa [bound] using hstrictly
  | some q =>
    have hproper := fun comparison => Predicate.proper_compare r comparison v
    have hiff : (bound r d v (some q)).Answered aliases row ↔
        (Predicate.compare r d.atLeast v).Answered aliases row ∧
          ((Predicate.compare r d.strictly v).or q).Answered aliases row :=
      Predicate.answered_and_iff (hproper d.atLeast) (Predicate.proper_or _ _)
    rw [hiff, Predicate.answered_or_iff (hproper _) (hinner q rfl), hstrictly, hatLeast, ← and_assoc,
      and_self]
    simp

theorem clashes_cons_iff {n : String} {names : List String} :
    c.Clashes s aliases row (n :: names) ↔
      (∃ v x, c.bound? n = some v ∧ v.Unordered ∧ s.HasValue aliases row n x) ∨
        c.Clashes s aliases row names := by
  simp only [Clashes, List.mem_cons, or_and_right, exists_or, exists_eq_left]

/-- **The boundary of a cursor is answered unless one of its values clashes with the row.** -/
theorem boundary_answered_iff (hs : s.HasColumns) (hrow : s.Types aliases row) (hc : c.Stored s)
    (horder : ∀ t ∈ order, ∃ f, resolveField (some s) t.field = .ok f)
    (hb : (c.boundary (some s) order).outcome = .ok b) :
    b.Proper ∧ (b.Answered aliases row ↔ ¬c.Clashes s aliases row order.names) := by
  induction order generalizing b with
  | nil =>
    cases hb
    exact ⟨nofun, iff_of_true (Predicate.answered_const true) nofun⟩
  | cons t rest ih =>
    have ih {b : Predicate} := ih (b := b) fun u hu => horder u (List.mem_cons_of_mem t hu)
    obtain ⟨f, hf⟩ := horder t (by simp)
    have hcolumn := hs.isColumn hf
    obtain ⟨r, x, hr, hx, hheld, hvalue⟩ := hrow.found hf
    have hnames : SortOrder.names (t :: rest) = t.field :: SortOrder.names rest := rfl
    rw [hnames, clashes_cons_iff, not_or]
    cases hv : c.bound? t.field with
    | none =>
      rw [boundary_unbounded hf hcolumn hv] at hb
      simpa using ih hb
    | some v =>
      rw [boundary_kept hf hcolumn hr hv, bind_outcome] at hb
      obtain ⟨inner, hinner, hb⟩ := bind_eq_ok_iff.1 hb
      cases hb
      obtain ⟨hproper, hiff⟩ := ih hinner
      have hhead : (x = .null ∨ ¬v.Unordered) ↔
          ¬∃ w y, some v = some w ∧ w.Unordered ∧ s.HasValue aliases row t.field y := by
        simp only [hvalue, Option.some.injEq, exists_and_left, exists_eq_left', exists_eq_left,
          not_and_or, not_not, or_comm]
      -- The last column has nothing behind it.
      have htail : (∀ q ∈ (if rest.isEmpty then none else some inner), q.Proper) ∧
          ((∀ q ∈ (if rest.isEmpty then none else some inner), q.Answered aliases row) ↔
            ¬c.Clashes s aliases row (SortOrder.names rest)) := by
        cases rest with
        | nil => simp [Clashes, SortOrder.names]
        | cons u rest => simpa using ⟨hproper, hiff⟩
      refine ⟨bound_ne_oddConst _ _, ?_⟩
      rw [bound_answered_iff hx hheld (hc _ f v hf hcolumn hv) htail.1, hhead, htail.2]

end Cursor

end Sieve
