import Sieve.Proofs.Evaluation.Search

/-!
# Selecting by the members of a composite

A composite stands for its members. An operator makes a predicate of each member, and the predicates are
joined: one member that matches is enough, unless the operator asks for emptiness. The words of a search
are looked for one by one, each in all members.

* `Predicate.TrueIff`: a predicate is answered, and true of the rows with a property;
* `Field.StandsFor`: the columns that a field stands for;
* `Field.SelectsIff`: an operator selects the rows with a property;
* `Field.selectsIff_composite`, `Field.selectsIff_words`: selecting by the members of a composite;
* `Field.StandsFor.selectsIff`: selecting by the columns of a field.
-/

namespace Sieve

open Outcome

/-! ### Answers for each item -/

namespace Traced

variable {α β : Type} {f : α → Traced β} {xs : List α} {ys : List β}

theorem bind_of_ok (a : α) (f : α → Traced β) : (ok a >>= f) = f a := rfl

theorem mapM_loop_of_forall₂ (h : List.Forall₂ (fun x y => f x = ok y) xs ys) (done : List β) :
    List.mapM.loop f xs done = ok (done.reverse ++ ys) := by
  induction h generalizing done with
  | nil =>
    rw [List.append_nil]
    rfl
  | @cons x y xs ys hx _ ih =>
    have hrest := ih (y :: done)
    rw [List.reverse_cons, List.append_assoc, List.singleton_append] at hrest
    rw [List.mapM.loop, hx, bind_of_ok, hrest]

/-- A step for every item that reports nothing. -/
theorem mapM_of_forall₂ (h : List.Forall₂ (fun x y => f x = ok y) xs ys) : xs.mapM f = ok ys :=
  mapM_loop_of_forall₂ h []

end Traced

section

variable {α β : Type} {P : α → Prop} {Q : β → Prop} {xs : List α} {ys : List β}

theorem forall_mem_iff_of_forall₂ (h : List.Forall₂ (fun x y => Q y ↔ P x) xs ys) :
    (∀ y ∈ ys, Q y) ↔ ∀ x ∈ xs, P x := by
  induction h with
  | nil => simp
  | cons hx _ ih => rw [List.forall_mem_cons, List.forall_mem_cons, hx, ih]

theorem exists_mem_iff_of_forall₂ (h : List.Forall₂ (fun x y => Q y ↔ P x) xs ys) :
    (∃ y ∈ ys, Q y) ↔ ∃ x ∈ xs, P x := by
  induction h with
  | nil => simp
  | cons hx _ ih => rw [List.exists_mem_cons_iff, List.exists_mem_cons_iff, hx, ih]

/-- Partners of all items make a list. -/
theorem exists_forall₂ {R : α → β → Prop} (h : ∀ x ∈ xs, ∃ y, R x y) : ∃ ys, List.Forall₂ R xs ys := by
  induction xs with
  | nil => exact ⟨[], .nil⟩
  | cons x xs ih =>
    obtain ⟨y, hy⟩ := h x (by simp)
    obtain ⟨ys, hys⟩ := ih fun z hz => h z (List.mem_cons_of_mem x hz)
    exact ⟨y :: ys, .cons hy hys⟩

end

/-! ### Predicates that are true of the rows with a property -/

namespace Predicate

/-- The predicate is answered on the row, and it is true if and only if the property holds. -/
def TrueIff (aliases : Aliases) (row : Value) (p : Predicate) (property : Prop) : Prop :=
  p.Proper ∧ ∃ t, p.evaluate aliases row = .ok t ∧ (t = some true ↔ property)

variable {aliases : Aliases} {row : Value} {α : Type} {P : α → Prop} {xs : List α} {ps : List Predicate}

theorem trueIff_const (b : Bool) : (const b).TrueIff aliases row (b = true) :=
  ⟨proper_const b, some b, rfl, by simp⟩

theorem TrueIff.congr {p : Predicate} {a b : Prop} (h : p.TrueIff aliases row a) (hab : a ↔ b) :
    p.TrueIff aliases row b :=
  have ⟨hproper, t, ht, htrue⟩ := h
  ⟨hproper, t, ht, htrue.trans hab⟩

theorem evaluateEach_trueIff (constant : Value → Except Error Truth)
    (h : List.Forall₂ (fun x p => TrueIff aliases row p (P x)) xs ps) :
    ∃ ts, evaluateEach aliases row constant ps = .ok ts ∧
      List.Forall₂ (fun x t => t = some true ↔ P x) xs ts := by
  induction h with
  | nil => exact ⟨[], rfl, .nil⟩
  | cons hp _ ih =>
    obtain ⟨hproper, t, ht, htrue⟩ := hp
    obtain ⟨ts, hts, htrues⟩ := ih
    exact ⟨t :: ts, by rw [evaluateEach_cons hproper, ht, ok_bind, hts]; rfl, .cons htrue htrues⟩

theorem trueIff_all (h : List.Forall₂ (fun x p => TrueIff aliases row p (P x)) xs ps) :
    (Predicate.all ps).TrueIff aliases row (∀ x ∈ xs, P x) := by
  obtain ⟨ts, hts, htrue⟩ := evaluateEach_trueIff oddConjunct h
  refine ⟨nofun, Truth.all ts, by rw [evaluate, hts]; rfl, ?_⟩
  rw [Truth.all_eq_true_iff, forall_mem_iff_of_forall₂ htrue]

theorem trueIff_any (h : List.Forall₂ (fun x p => TrueIff aliases row p (P x)) xs ps) :
    (Predicate.any ps).TrueIff aliases row (∃ x ∈ xs, P x) := by
  obtain ⟨ts, hts, htrue⟩ := evaluateEach_trueIff oddDisjunct h
  refine ⟨nofun, Truth.any ts, by rw [evaluate, hts]; rfl, ?_⟩
  rw [Truth.any_eq_true_iff, ← exists_mem_iff_of_forall₂ htrue]
  simp

/-- Joined predicates are true if all of them are; a single one is left as it is. -/
theorem trueIff_conjunction (h : List.Forall₂ (fun x p => TrueIff aliases row p (P x)) xs ps) :
    (conjunction ps).TrueIff aliases row (∀ x ∈ xs, P x) := by
  cases h with
  | nil => exact trueIff_all .nil
  | cons hp hps =>
    cases hps with
    | nil => exact hp.congr (by simp)
    | cons hq hps => exact trueIff_all (.cons hp (.cons hq hps))

theorem trueIff_disjunction (h : List.Forall₂ (fun x p => TrueIff aliases row p (P x)) xs ps) :
    (disjunction ps).TrueIff aliases row (∃ x ∈ xs, P x) := by
  cases h with
  | nil => exact trueIff_any .nil
  | cons hp hps =>
    cases hps with
    | nil => exact hp.congr (by simp)
    | cons hq hps => exact trueIff_any (.cons hp (.cons hq hps))

end Predicate

namespace Operator

variable {aliases : Aliases} {row : Value} {α : Type} {P : α → Prop} {xs : List α} {ps : List Predicate}

theorem trueIff_allFragments
    (h : List.Forall₂ (fun x p => Predicate.TrueIff aliases row p (P x)) xs ps) :
    (allFragments ps).TrueIff aliases row (∀ x ∈ xs, P x) := by
  cases h with
  | nil => exact (Predicate.trueIff_const true).congr (by simp)
  | cons hp hps => exact Predicate.trueIff_conjunction (.cons hp hps)

theorem trueIff_someFragment
    (h : List.Forall₂ (fun x p => Predicate.TrueIff aliases row p (P x)) xs ps) :
    (someFragment ps).TrueIff aliases row (∃ x ∈ xs, P x) := by
  cases h with
  | nil => exact (Predicate.trueIff_const false).congr (by simp)
  | cons hp hps => exact Predicate.trueIff_disjunction (.cons hp hps)

end Operator

/-! ### Columns -/

namespace Field

/-- The columns that a field stands for: itself, or the members of a composite. -/
inductive StandsFor (schema : Option Schema) : Field → List Field → Prop
  | column {f : Field} (hf : f.IsColumn) : StandsFor schema f [f]
  | composite {name : String} {members : List String} {gs : List Field}
    (hgs : members.mapM (resolveField schema) = .ok gs) (hcolumns : ∀ g ∈ gs, g.IsColumn) :
    StandsFor schema (.composite name members) gs

/-- The row has the value in the column. -/
def Reads (aliases : Aliases) (row : Value) (g : Field) (x : Value) : Prop :=
  ∃ r, g.ref? = some r ∧ r.read aliases row = .ok x

/-- The operator makes a predicate of the column and the value that is true of the row if and only if the
property holds. -/
def Answers (g : Field) (op : Operator) (v : Value) (aliases : Aliases) (row : Value)
    (property : Prop) : Prop :=
  ∃ r p, g.ref? = some r ∧ op.onRef r g.type v = .ok p ∧ p.TrueIff aliases row property

/-- The operator makes a predicate of the field and the value without reporting anything, and the row is
selected by it if and only if the property holds. -/
def SelectsIff (f : Field) (schema : Option Schema) (policy : CompositePolicy) (op : Operator)
    (v : Value) (aliases : Aliases) (row : Value) (property : Prop) : Prop :=
  ∃ p, f.select schema policy op v = .ok p ∧ p.TrueIff aliases row property

variable {schema : Option Schema} {policy : CompositePolicy} {op : Operator} {v x y : Value}
  {aliases : Aliases} {row : Value} {f g : Field} {name : String} {members : List String}
  {gs : List Field} {P : Field → Prop}

/-- A composite stands for its members. -/
theorem standsFor_composite_iff : (composite name members).StandsFor schema gs ↔
    members.mapM (resolveField schema) = .ok gs ∧ ∀ g ∈ gs, g.IsColumn := by
  constructor
  · intro h
    cases h with
    | column hf => exact absurd hf (by simp [IsColumn, kind])
    | composite hgs hcolumns => exact ⟨hgs, hcolumns⟩
  · rintro ⟨hgs, hcolumns⟩
    exact .composite hgs hcolumns

theorem Reads.unique (hx : g.Reads aliases row x) (hy : g.Reads aliases row y) : x = y := by
  obtain ⟨r, hr, hx⟩ := hx
  obtain ⟨s, hs, hy⟩ := hy
  cases hr.symm.trans hs
  exact Except.ok.inj (hx.symm.trans hy)

theorem SelectsIff.congr {a b : Prop} (h : f.SelectsIff schema policy op v aliases row a)
    (hab : a ↔ b) : f.SelectsIff schema policy op v aliases row b :=
  have ⟨p, hp, htrue⟩ := h
  ⟨p, hp, htrue.congr hab⟩

/-- A column that answers an operator is selected by it. -/
theorem Answers.selectsIff {property : Prop} (h : f.Answers op v aliases row property)
    (hf : f.IsColumn) : f.SelectsIff schema policy op v aliases row property :=
  have ⟨_, p, hr, hp, htrue⟩ := h
  ⟨p, selectWithin_column hf hr hp _, htrue⟩

/-- The predicates of some columns. -/
theorem exists_fragments (hcolumns : ∀ g ∈ gs, g.IsColumn)
    (h : ∀ g ∈ gs, g.Answers op v aliases row (P g)) (schema : Option Schema)
    (policy : CompositePolicy) (depth : Nat) :
    ∃ ps, (gs.mapM fun g => selectWithin schema policy op v g (depth + 1)) = .ok ps ∧
      List.Forall₂ (fun g p => Predicate.TrueIff aliases row p (P g)) gs ps := by
  have heach : ∀ g ∈ gs, ∃ p, selectWithin schema policy op v g (depth + 1) = .ok p ∧
      p.TrueIff aliases row (P g) := fun g hg =>
    have ⟨_, p, hr, hp, htrue⟩ := h g hg
    ⟨p, selectWithin_column (hcolumns g hg) hr hp depth, htrue⟩
  obtain ⟨ps, hps⟩ := exists_forall₂ heach
  exact ⟨ps, Traced.mapM_of_forall₂ (hps.imp fun _ _ h => h.1), hps.imp fun _ _ h => h.2⟩

/-- The members of a composite are looked up without a report. -/
theorem mapM_resolve (hgs : members.mapM (resolveField schema) = .ok gs) :
    (members.mapM fun n => Traced.lift (resolveField schema n)) = .ok gs :=
  Traced.mapM_of_forall₂ ((mapM_eq_ok_iff.1 hgs).imp fun _ _ h => by rw [h]; rfl)

/-- A composite is selected by through its members. -/
theorem selectWithin_members (hgs : members.mapM (resolveField schema) = .ok gs)
    (hop : op.refusesComposite = false) (hmulti : op.isMultiTerm = false) (depth : Nat) :
    selectWithin schema policy op v (composite name members) (depth + 1) = do
      let ps ← gs.mapM fun g => selectWithin schema .warn op v g depth
      return if op = .empty then .conjunction ps else .disjunction ps := by
  rw [selectWithin, if_neg (Bool.eq_false_iff.1 hop), mapM_resolve hgs, Traced.bind_of_ok,
    if_neg (Bool.eq_false_iff.1 hmulti)]

/-- For the words of a search it is so for each of them. -/
theorem selectWithin_words {words : List String}
    (hgs : members.mapM (resolveField schema) = .ok gs) (hmulti : op.isMultiTerm = true)
    (hwords : v.searchTerms = .ok words) (depth : Nat) :
    selectWithin schema policy op v (composite name members) (depth + 1) = do
      let ps ← words.mapM fun w => do
        return .disjunction
          (← gs.mapM fun g => selectWithin schema .warn op.single (.text w) g depth)
      return if op.needsAll then Operator.allFragments ps else Operator.someFragment ps := by
  have hop : op.refusesComposite = false := by cases op <;> first | rfl | cases hmulti
  rw [selectWithin, if_neg (Bool.eq_false_iff.1 hop), mapM_resolve hgs, Traced.bind_of_ok,
    if_pos hmulti, hwords]
  rfl

/-- **An operator is decided by the members of a composite**: all of them have to answer if emptiness is
asked for, else one is enough. -/
theorem selectsIff_composite (hgs : members.mapM (resolveField schema) = .ok gs)
    (hcolumns : ∀ g ∈ gs, g.IsColumn) (hop : op.refusesComposite = false)
    (hmulti : op.isMultiTerm = false) (h : ∀ g ∈ gs, g.Answers op v aliases row (P g)) :
    (composite name members).SelectsIff schema policy op v aliases row
      (if op = .empty then ∀ g ∈ gs, P g else ∃ g ∈ gs, P g) := by
  obtain ⟨ps, hps, htrue⟩ := exists_fragments hcolumns h schema .warn
    ((schema.map (·.fields.length)).getD 0)
  refine ⟨if op = .empty then .conjunction ps else .disjunction ps, ?_, ?_⟩
  · rw [select, levels, selectWithin_members hgs hop hmulti, hps]
    rfl
  · split
    · exact Predicate.trueIff_conjunction htrue
    · exact Predicate.trueIff_disjunction htrue

/-- A field is decided by the columns that it stands for. -/
theorem StandsFor.selectsIff (hf : f.StandsFor schema gs) (hop : op.refusesComposite = false)
    (hmulti : op.isMultiTerm = false) (h : ∀ g ∈ gs, g.Answers op v aliases row (P g)) :
    f.SelectsIff schema policy op v aliases row
      (if op = .empty then ∀ g ∈ gs, P g else ∃ g ∈ gs, P g) := by
  cases hf with
  | column hcolumn =>
    refine ((h f (by simp)).selectsIff hcolumn).congr ?_
    rw [List.forall_mem_singleton]
    simp
  | composite hgs hcolumns => exact selectsIff_composite hgs hcolumns hop hmulti h

/-- **The words of a search are looked for one by one**, each in all members of a composite. -/
theorem selectsIff_words {words : List String} {Q : String → Field → Prop}
    (hgs : members.mapM (resolveField schema) = .ok gs) (hcolumns : ∀ g ∈ gs, g.IsColumn)
    (hmulti : op.isMultiTerm = true) (hwords : v.searchTerms = .ok words)
    (h : ∀ w ∈ words, ∀ g ∈ gs, g.Answers op.single (.text w) aliases row (Q w g)) :
    (composite name members).SelectsIff schema policy op v aliases row
      (if op.needsAll then ∀ w ∈ words, ∃ g ∈ gs, Q w g else ∃ w ∈ words, ∃ g ∈ gs, Q w g) := by
  have heach : ∀ w ∈ words, ∃ p,
      (do return .disjunction (← gs.mapM fun g => selectWithin schema .warn op.single (.text w) g
        ((schema.map (·.fields.length)).getD 0 + 1)) : Traced Predicate) = .ok p ∧
      p.TrueIff aliases row (∃ g ∈ gs, Q w g) := by
    intro w hw
    obtain ⟨ps, hps, htrue⟩ := exists_fragments hcolumns (h w hw) schema .warn
      ((schema.map (·.fields.length)).getD 0)
    exact ⟨.disjunction ps, by rw [hps]; rfl, Predicate.trueIff_disjunction htrue⟩
  obtain ⟨ps, hps⟩ := exists_forall₂ heach
  have htrue := hps.imp fun _ _ h => h.2
  refine ⟨if op.needsAll then Operator.allFragments ps else Operator.someFragment ps, ?_, ?_⟩
  · rw [select, levels, selectWithin_words hgs hmulti hwords, Traced.mapM_of_forall₂ (hps.imp fun _ _ h => h.1)]
    rfl
  · split
    · exact Operator.trueIff_allFragments htrue
    · exact Operator.trueIff_someFragment htrue

end Field

end Sieve
