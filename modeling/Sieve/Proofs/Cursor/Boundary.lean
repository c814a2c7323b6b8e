import Sieve.Proofs.Predicate
import Sieve.Cursor.Boundary

/-!
# How boundaries are built

The boundary of an ordering takes one term at a time. A term counts if its field is a column that the
cursor has a value for; any other term is passed over.

* `Field.IsColumn`: the field is a column of the entity or of a joined entity;
* `SortTerm.FoundAt`, `SortOrder.keys_cons`: the keys of an ordering by columns;
* `Cursor.boundary_kept`, `Cursor.boundary_unbounded`, `Cursor.boundary_composite`: what a term adds
  to the boundary;
* `Predicate.evaluate_all_eq_true_iff`, `Predicate.evaluate_any_eq_true_iff`: when two joined
  predicates hold;
* `pairRow`, `byPair`: rows and an ordering to show boundaries on.
-/

namespace Sieve

/-- The field is a column of the entity or of a joined entity. -/
def Field.IsColumn (f : Field) : Prop :=
  f.kind = .plain ∨ f.kind = .join

theorem Field.IsColumn.exists_ref {f : Field} (h : f.IsColumn) : ∃ r, f.ref? = some r :=
  Option.isSome_iff_exists.1 ((ref?_isSome_iff f).2 (h.imp_right .inr))

/-! ### Keys -/

/-- The field of the term is found where the key says. -/
def SortTerm.FoundAt (schema : Option Schema) (t : SortTerm) (k : SortKey) : Prop :=
  ∃ f, resolveField schema t.field = .ok f ∧ f.ref? = some k.ref ∧ k.direction = t.direction

namespace SortOrder

variable {schema : Option Schema} {t : SortTerm} {k : SortKey}

theorem expandTerm_of_foundAt {s : Schema} (h : t.FoundAt (some s) k) :
    expandTerm s t = .ok [t] := by
  obtain ⟨f, hf, href, _⟩ := h
  rw [expandTerm, Schema.resolve_eq_ok_iff.1 hf]
  cases f with
  | plain | isAlias | join => rfl
  | composite | custom => cases href

theorem key_of_foundAt (h : t.FoundAt schema k) : key schema t = .ok k := by
  obtain ⟨f, hf, href, hd⟩ := h
  simp [key, hf, Field.ref, href, ← hd]

/-- A term that is found in rows adds its key. -/
theorem keys_cons {rest : SortOrder} {ks : List SortKey} (h : t.FoundAt schema k)
    (hrest : rest.keys schema = .ok ks) : SortOrder.keys schema (t :: rest) = .ok (k :: ks) := by
  obtain ⟨expanded, hexpand, hkeys⟩ := Outcome.bind_eq_ok_iff.1 hrest
  have hcons : SortOrder.expand schema (t :: rest) = .ok (t :: expanded) := by
    cases schema with
    | none =>
      cases hexpand
      rfl
    | some s =>
      obtain ⟨terms, hterms, heq⟩ := Outcome.bind_eq_ok_iff.1 hexpand
      cases heq
      simp only [expand, List.mapM_cons, expandTerm_of_foundAt h, hterms, Outcome.ok_bind]
      rfl
  rw [SortOrder.keys, hcons, Outcome.ok_bind, List.mapM_cons, key_of_foundAt h, hkeys]
  rfl

end SortOrder

/-! ### Terms -/

namespace Cursor

variable {schema : Option Schema} {c : Cursor} {t : SortTerm} {rest : SortOrder} {f : Field}
  {r : FieldRef} {v : Value}

theorem bound?_ne_null (h : c.bound? t.field = some v) : v ≠ .null := by
  rintro rfl
  unfold bound? at h
  split at h
  · cases h
  · exact absurd h ‹_›

/-- A column that the cursor has a value for is bounded by it. -/
theorem boundary_kept (hf : resolveField schema t.field = .ok f) (hcol : f.IsColumn)
    (hr : f.ref? = some r) (hv : c.bound? t.field = some v) :
    c.boundary schema (t :: rest) = c.boundary schema rest >>= fun inner =>
      pure (bound r t.direction v (if rest.isEmpty then none else some inner)) := by
  have href : f.ref = .ok r := by simp [Field.ref, hr]
  rw [boundary]
  cases f with
  | plain | join => simp [Traced.lift, hf, hv, href]
  | isAlias | composite | custom => exact absurd hcol (by simp [Field.IsColumn, Field.kind])

/-- A column that the cursor has no value for is passed over. -/
theorem boundary_unbounded (hf : resolveField schema t.field = .ok f) (hcol : f.IsColumn)
    (hv : c.bound? t.field = none) : c.boundary schema (t :: rest) = c.boundary schema rest := by
  rw [boundary]
  cases f with
  | plain | join =>
    obtain ⟨events, inner | inner⟩ := c.boundary schema rest <;> simp [Traced.lift, hf, hv]
  | isAlias | composite | custom => exact absurd hcol (by simp [Field.IsColumn, Field.kind])

/-- A composite is passed over. -/
theorem boundary_composite (hf : resolveField schema t.field = .ok f) (hkind : f.kind = .composite) :
    (c.boundary schema (t :: rest)).outcome = (c.boundary schema rest).outcome := by
  rw [boundary]
  cases f with
  | composite =>
    obtain ⟨events, inner | inner⟩ := c.boundary schema rest <;> simp [Traced.lift, hf]
  | plain | isAlias | join | custom => cases hkind

theorem bound_ne_oddConst (d : Direction) (inner : Option Predicate) (w : Value) :
    bound r d v inner ≠ .oddConst w := by
  cases inner <;> simp [bound]

end Cursor

/-! ### Answers -/

namespace Predicate

variable {aliases : Aliases} {row : Value} {p q : Predicate}

/-- Two joined predicates hold if both do. -/
theorem evaluate_all_eq_true_iff (hp : ∀ v, p ≠ .oddConst v) (hq : ∀ v, q ≠ .oddConst v) :
    evaluate aliases row (.all [p, q]) = .ok (some true) ↔
      evaluate aliases row p = .ok (some true) ∧ evaluate aliases row q = .ok (some true) := by
  constructor
  · intro h
    rw [evaluate, evaluateEach_cons hp, evaluateEach_cons hq] at h
    cases ht : evaluate aliases row p with
    | error e => simp [ht] at h
    | ok t =>
      cases hu : evaluate aliases row q with
      | error e => simp [ht, hu] at h
      | ok u =>
        have hall : Truth.all [t, u] = some true := by simpa [ht, hu, evaluateEach] using h
        rw [Truth.all_eq_true_iff] at hall
        exact ⟨congrArg _ (hall t (by simp)), congrArg _ (hall u (by simp))⟩
  · rintro ⟨ht, hu⟩
    exact evaluate_all_two ht hu hp hq

/-- One of two predicates holds only if both are answered and one of them holds. -/
theorem evaluate_any_eq_true_iff (hp : ∀ v, p ≠ .oddConst v) (hq : ∀ v, q ≠ .oddConst v) :
    evaluate aliases row (.any [p, q]) = .ok (some true) ↔
      ∃ t u, evaluate aliases row p = .ok t ∧ evaluate aliases row q = .ok u ∧
        (t = some true ∨ u = some true) := by
  constructor
  · intro h
    rw [evaluate, evaluateEach_cons hp, evaluateEach_cons hq] at h
    cases ht : evaluate aliases row p with
    | error e => simp [ht] at h
    | ok t =>
      cases hu : evaluate aliases row q with
      | error e => simp [ht, hu] at h
      | ok u =>
        have hany : Truth.any [t, u] = some true := by simpa [ht, hu, evaluateEach] using h
        rw [Truth.any_eq_true_iff] at hany
        exact ⟨t, u, rfl, rfl, by simpa [eq_comm] using hany⟩
  · rintro ⟨t, u, ht, hu, hor⟩
    rw [evaluate_any_two ht hu hp hq]
    exact congrArg _ ((Truth.any_eq_true_iff _).2 (by simpa [eq_comm] using hor))

end Predicate

/-! ### Rows of two columns -/

/-- A row of two columns. -/
def pairRow (a b : Value) : Value :=
  .map [(.text "a", a), (.text "b", b)]

/-- The ordering by two columns. -/
def byPair : SortOrder := [⟨"a", .asc⟩, ⟨"b", .asc⟩]

end Sieve
