import Sieve.Proofs.Schema.Members
import Sieve.Cursor.Pivot
import Sieve.Memory

/-!
# Exposed fields

A schema exposes the fields that filters and orderings may name and the members of exposed
composites. No other field is within the reach of parameters.

* `Schema.Exposed`: the names that a schema exposes;
* `Schema.Agree`: two rows have the same values in all exposed fields;
* `Schema.read_eq`, `Schema.fieldRead_eq`: rows that agree have the same value wherever a reference
  to an exposed field leads, and in every exposed field;
* `Cursor.ofRow_eq`: their cursors for exposed fields are the same.
-/

namespace Sieve

/-! ### Exposed fields -/

/-- The field has its values in the rows: it is a column of the entity, a column of a joined entity
with a binding, or a composite. -/
def Field.IsStored : Field → Prop
  | .plain .. | .composite .. => True
  | .join _ binding .. => binding.isSome = true
  | .isAlias _ | .custom .. => False

theorem Field.read_join (schema : Option Schema) (row : Value) (name : String)
    (binding column : Option String) (path : List Value) (t : StorageType) (ops : List Operator) :
    read schema row (.join name binding column path t ops) = row.atPath path := rfl

namespace Schema

/-- All fields of the schema have their values in the rows. -/
def IsStored (s : Schema) : Prop :=
  ∀ f ∈ s.fields, f.IsStored

/-- The names of the fields that parameters can reach. -/
inductive Exposed (s : Schema) : String → Prop
  | filterable {n : String} (h : s.isFilterable n = true) : Exposed s n
  | sortable {n : String} (h : s.isSortable n = true) : Exposed s n
  | member {n name m : String} {members : List String} (hn : Exposed s n)
      (h : s.get? n = some (.composite name members)) (hm : m ∈ members) : Exposed s m

/-- Two rows have the same values in all exposed fields. Composites have the values of their
members. -/
def Agree (s : Schema) (a b : Value) : Prop :=
  ∀ n f, s.Exposed n → s.get? n = some f → f.kind ≠ .composite →
    f.read (some s) a = f.read (some s) b

/-- The reference leads to an exposed field. -/
def Refers (s : Schema) (r : FieldRef) : Prop :=
  ∃ n f, s.Exposed n ∧ s.get? n = some f ∧ f.ref? = some r

variable {s : Schema} {a b : Value} {r : FieldRef} {n : String} {f : Field}

theorem isStored_of_get? (hs : s.IsStored) (h : s.get? n = some f) : f.IsStored :=
  hs f (List.mem_of_find?_eq_some h)

theorem resolveField_some (s : Schema) (n : String) (f : Field) :
    resolveField (some s) n = .ok f ↔ s.get? n = some f :=
  resolve_eq_ok_iff

/-- **Rows that agree have the same value wherever a request may look.** -/
theorem read_eq (hs : s.IsStored) (hab : s.Agree a b) (hr : s.Refers r) (aliases : Aliases) :
    r.read aliases a = r.read aliases b := by
  obtain ⟨n, f, hn, hf, href⟩ := hr
  have hstored := isStored_of_get? hs hf
  cases f with
  | plain name t =>
    have heq := hab n _ hn hf (by simp [Field.kind])
    cases href
    simpa [FieldRef.read, FieldRef.of, FieldRef.column] using heq
  | join name binding column path t ops =>
    have heq := hab n _ hn hf (by simp [Field.kind])
    rw [Field.read_join, Field.read_join] at heq
    cases href
    have hb : binding.isSome = true := hstored
    simp only [FieldRef.read, FieldRef.of, hb, if_true, Bool.false_eq_true, if_false]
    cases path with
    | nil =>
      -- Without a path the value of the field is the row itself.
      rw [Except.ok.inj heq]
    | cons => simpa using heq
  | isAlias | custom => exact hstored.elim
  | composite => cases href

theorem readWithin_eq (hs : s.IsStored) (hab : s.Agree a b) (depth : Nat) (hn : s.Exposed n)
    (hf : s.get? n = some f) :
    f.readWithin (some s) a depth = f.readWithin (some s) b depth := by
  induction depth generalizing n f with
  | zero => rfl
  | succ depth ih =>
    have hstored := isStored_of_get? hs hf
    cases f with
    | plain | join => exact hab n _ hn hf (by simp [Field.kind])
    | isAlias | custom => exact hstored.elim
    | composite name members =>
      simp only [Field.readWithin]
      congr 1
      refine Outcome.mapM_congr fun m hm => ?_
      cases hr : resolveField (some s) m with
      | error e => rfl
      | ok g => exact ih (.member hn hf hm) ((resolveField_some _ _ _).1 hr)

/-- Rows that agree have the same value in every exposed field, composites included. -/
theorem fieldRead_eq (hs : s.IsStored) (hab : s.Agree a b) (hn : s.Exposed n)
    (hf : s.get? n = some f) : f.read (some s) a = f.read (some s) b :=
  readWithin_eq hs hab _ hn hf

end Schema

/-- Rows that agree have the same cursor for exposed fields. -/
theorem Cursor.ofRow_eq {s : Schema} {a b : Value} (hs : s.IsStored) (hab : s.Agree a b)
    {names : List String} (hn : ∀ n ∈ names, s.Exposed n) :
    Cursor.ofRow (some s) a names = Cursor.ofRow (some s) b names := by
  have hread : ∀ n ∈ names, ∀ c : Cursor,
      (do return c.put n (← (← resolveField (some s) n).read (some s) a) : Except Error Cursor) =
        do return c.put n (← (← resolveField (some s) n).read (some s) b) := by
    intro n hmem c
    cases hf : resolveField (some s) n with
    | error e => rfl
    | ok f =>
      simp only [Outcome.ok_bind]
      rw [Schema.fieldRead_eq hs hab (hn n hmem) ((Schema.resolveField_some _ _ _).1 hf)]
  exact Outcome.foldlM_congr hread []

end Sieve
